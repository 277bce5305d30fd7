import NetworkLayer.CellBlocks
import NetworkLayer.Hashmap

/-!
# Ips in their arrays

The comparison and the copy of ips cell by cell, with the places they read
and write. An array holds a string that ends within its seventeen bytes; what
is behind the terminator, in the array or in memory, never shows. Keys
compare as the identities do that their arrays hold.
-/

namespace NetworkLayer.IpArrays

open ByteStrings CellBlocks UtilTypes Hashmap

/-- `IP_ADDR_SIZE`. -/
def ipAddrSize : ℕ := 17

/-- The memory from the start of an ip array on. -/
structure IpArray where
  /-- The bytes of the array and those behind it. -/
  cells : ℕ → Byte
  /-- The string in the array ends there. -/
  terminated : ∃ i < ipAddrSize,cells i=0

/-- An identity as it lies in memory. -/
structure SocketIDCells where
  /-- Own port. -/
  srcPort : ℤ
  /-- The partner's port. -/
  dstPort : ℤ
  /-- Own ip. -/
  srcIp : IpArray
  /-- The partner's ip. -/
  dstIp : IpArray

/-- The characters from a place on, up to the terminator among the next so
many cells. -/
def charsFrom (cells : ℕ → Byte) (i n : ℕ) : List Byte :=
  (loadBlock cells i n).takeWhile fun b => b != 0

/-- Its terminator, counted from the first cell. -/
theorem IpArray.terminated_from_zero (ip : IpArray) : ∃ k < ipAddrSize,ip.cells (0+k)=0 := by
  simpa only [Nat.zero_add] using ip.terminated

/-- The string that an array holds. -/
def IpArray.string (ip : IpArray) : CString := CString.ofCells (loadBlock ip.cells 0 ipAddrSize)

/-- The identity that the arrays hold. -/
def SocketIDCells.socketId (id : SocketIDCells) : SocketID :=
  ⟨id.srcPort,id.dstPort,id.srcIp.string,id.dstIp.string⟩

/-- The loop of `strcmp_t` from an index on: the flag it returns and the
indices at which it read both strings. -/
def strcmpTLoop (string1 string2 : ℕ → Byte) : ℕ → ℕ → Option (ℤ × List ℕ)
  | 0,_ => none
  | fuel+1,i =>
    let flag := charOrder (string1 i) (string2 i)
    if string1 i=0 then some (flag,[i])
    else if flag≠0 then some (flag,[i])
    else (strcmpTLoop string1 string2 fuel (i+1)).map fun r => (r.1,i::r.2)

/-- `strcmp_t` of two arrays. -/
def strcmpTOf (fuel : ℕ) (string1 string2 : IpArray) : Option (ℤ × List ℕ) :=
  strcmpTLoop string1.cells string2.cells fuel 0

/-- `compareKeys` of two pointers. -/
def compareKeysAt (fuel : ℕ) (heap : ℕ → SocketIDCells) (key1 key2 : ℕ) : Option Bool :=
  if key1=key2 then some true
  else if (heap key1).dstPort≠(heap key2).dstPort then some false
  else (strcmpTOf fuel (heap key1).srcIp (heap key2).srcIp).bind fun r =>
    if r.1≠0 then some false
    else if (heap key1).srcPort≠(heap key2).srcPort then some false
    else (strcmpTOf fuel (heap key1).dstIp (heap key2).dstIp).map fun r => r.1=0

/-- What a copying function reads and stores. -/
structure Copy where
  /-- Indices of the source that are read. -/
  reads : List ℕ
  /-- The stores to the destination, in order. -/
  stores : List (ℕ × Byte)

/-- The second loop of `strcpy_t`: ones up to the end of the array. -/
def padding (i room : ℕ) : List (ℕ × Byte) := (List.range room).map fun j => (i+j,1)

/-- The first loop of `strcpy_t` from an index on, with so many indices before
the last one of the array, and what follows it. -/
def strcpyTLoop (source : ℕ → Byte) : ℕ → ℕ → Copy
  | 0,i => ⟨[i],(i,0)::padding (i+1) 0⟩
  | room+1,i =>
    if source i=0 then ⟨[i],(i,0)::padding (i+1) (room+1)⟩
    else
      let rest := strcpyTLoop source room (i+1)
      ⟨i::rest.reads,(i,source i)::rest.stores⟩

/-- `strcpy_t`. -/
def strcpyT (source : ℕ → Byte) : Copy := strcpyTLoop source (ipAddrSize-1) 0

/-- The stores of `ip_set_empty`. -/
def ipSetEmpty : List (ℕ × Byte) :=
  (List.range maxIpLength).map (fun i => (i,101))++[(maxIpLength,0)]

/-- The stores of `copy_socket_id` to one ip of the copy. -/
def copyStores (source : ℕ → Byte) : List (ℕ × Byte) := ipSetEmpty++(strcpyT source).stores

/-- A terminator among so many cells is found one place further on unless it
is at hand. -/
theorem terminated_next {cells : ℕ → Byte} {i n : ℕ} (h : ∃ k < n+1,cells (i+k)=0)
    (hne : cells i≠0) : ∃ k < n,cells (i+1+k)=0 := by
  obtain ⟨k,hk,hzero⟩ := h
  cases k with
  | zero => exact absurd hzero hne
  | succ k => exact ⟨k,Nat.lt_of_succ_lt_succ hk,by rwa [Nat.add_assoc,Nat.add_comm 1 k]⟩

theorem charsFrom_of_zero {cells : ℕ → Byte} {i : ℕ} (n : ℕ) (h : cells i=0) :
    charsFrom cells i (n+1)=[] := by
  rw [charsFrom,loadBlock_succ,List.takeWhile_cons_of_neg (by simp [h])]

theorem charsFrom_of_ne {cells : ℕ → Byte} {i : ℕ} (n : ℕ) (h : cells i≠0) :
    charsFrom cells i (n+1)=cells i::charsFrom cells (i+1) n := by
  rw [charsFrom,loadBlock_succ,List.takeWhile_cons_of_pos (by simp [h])]
  rfl

/-- The loop returns what the comparison of the characters gives, and reads
no index behind the first terminator of either string. -/
theorem strcmpTLoop_eq {string1 string2 : ℕ → Byte} {i n : ℕ}
    (h1 : ∃ k < n,string1 (i+k)=0) (h2 : ∃ k < n,string2 (i+k)=0) :
    ∃ reads,(∀ fuel ≥ n,strcmpTLoop string1 string2 fuel i=
        some (strcmpT (charsFrom string1 i n) (charsFrom string2 i n),reads)) ∧
      ∀ j∈reads,∀ l,i ≤ l → l < j → string1 l≠0 ∧ string2 l≠0 := by
  induction n generalizing i with
  | zero =>
    obtain ⟨k,hk,_⟩ := h1
    exact absurd hk (Nat.not_lt_zero k)
  | succ n ih =>
    have honly : ∀ j∈[i],∀ l,i ≤ l → l < j → string1 l≠0 ∧ string2 l≠0 := by
      intro j hj l hil hlj
      obtain rfl := List.mem_singleton.mp hj
      omega
    by_cases hzero1 : string1 i=0
    · refine ⟨[i],?_,honly⟩
      rintro (_|fuel) hfuel
      · omega
      rw [strcmpTLoop,if_pos hzero1,charsFrom_of_zero n hzero1,hzero1]
      by_cases hzero2 : string2 i=0
      · rw [charsFrom_of_zero n hzero2,hzero2]
        rfl
      · rw [charsFrom_of_ne n hzero2]
        rfl
    by_cases hzero2 : string2 i=0
    · refine ⟨[i],?_,honly⟩
      rintro (_|fuel) hfuel
      · omega
      have hflag : charOrder (string1 i) (string2 i)≠0 := by
        rw [Ne,charOrder_eq_zero_iff,hzero2]
        exact hzero1
      rw [strcmpTLoop,if_neg hzero1,if_pos hflag,charsFrom_of_zero n hzero2,
        charsFrom_of_ne n hzero1,hzero2]
      rfl
    by_cases hflag : charOrder (string1 i) (string2 i)≠0
    · refine ⟨[i],?_,honly⟩
      rintro (_|fuel) hfuel
      · omega
      rw [strcmpTLoop,if_neg hzero1,if_pos hflag,charsFrom_of_ne n hzero1,
        charsFrom_of_ne n hzero2,strcmpT,if_pos hflag]
    · obtain ⟨reads,hloop,hreads⟩ := ih (terminated_next h1 hzero1) (terminated_next h2 hzero2)
      refine ⟨i::reads,?_,?_⟩
      · rintro (_|fuel) hfuel
        · omega
        rw [strcmpTLoop,if_neg hzero1,if_neg hflag,hloop fuel (by omega),charsFrom_of_ne n hzero1,
          charsFrom_of_ne n hzero2,strcmpT,if_neg hflag,if_neg hzero1,Option.map_some]
      · intro j hj l hil hlj
        rcases List.mem_cons.mp hj with rfl|hrest
        · omega
        · rcases Nat.eq_or_lt_of_le hil with rfl|hlt
          · exact ⟨hzero1,hzero2⟩
          · exact hreads j hrest l hlt hlj

/-- The first place where the strings differ decides what is returned. -/
theorem strcmpTLoop_difference {string1 string2 : ℕ → Byte} {i d fuel : ℕ} (hid : i ≤ d)
    (hsame : ∀ l,i ≤ l → l < d → string1 l=string2 l ∧ string1 l≠0)
    (hne : string1 d≠string2 d) (hfuel : d-i < fuel) :
    ∃ reads,strcmpTLoop string1 string2 fuel i=
      some (charOrder (string1 d) (string2 d),reads) := by
  induction fuel generalizing i with
  | zero => omega
  | succ fuel ih =>
    rw [strcmpTLoop]
    rcases Nat.eq_or_lt_of_le hid with rfl|hlt
    · have hflag : charOrder (string1 i) (string2 i)≠0 := fun h => hne (charOrder_eq_zero_iff.mp h)
      simp only [if_pos hflag,ite_self]
      exact ⟨_,rfl⟩
    · obtain ⟨hequal,hzero⟩ := hsame i le_rfl hlt
      have hflag : ¬charOrder (string1 i) (string2 i)≠0 :=
        not_not_intro (charOrder_eq_zero_iff.mpr hequal)
      obtain ⟨reads,hloop⟩ := ih (i:=i+1) hlt
        (fun l hil hld => hsame l (Nat.le_of_succ_le hil) hld) (by omega)
      simp only [if_neg hzero,if_neg hflag,hloop,Option.map_some]
      exact ⟨_,rfl⟩

/-- The sign of a comparison of two characters is that of their difference. -/
theorem charOrder_sign (a b : Byte) : (charOrder a b < 0 ↔ charValue a < charValue b) ∧
    (charOrder a b > 0 ↔ charValue a > charValue b) := by
  unfold charOrder
  split
  · omega
  · split <;> omega

/-- What `strcmp_t` of two arrays returns and reads. -/
theorem strcmpTOf_spec (string1 string2 : IpArray) :
    ∃ reads,(∀ fuel ≥ ipAddrSize,strcmpTOf fuel string1 string2=
        some (strcmpT string1.string.chars string2.string.chars,reads)) ∧
      ∀ j∈reads,∀ l < j,string1.cells l≠0 ∧ string2.cells l≠0 := by
  obtain ⟨reads,hloop,hreads⟩ :=
    strcmpTLoop_eq string1.terminated_from_zero string2.terminated_from_zero
  exact ⟨reads,hloop,fun j hj l hl => hreads j hj l (Nat.zero_le l) hl⟩

/-- Comparing keys in memory is comparing the identities in their arrays. -/
theorem compareKeysAt_eq {fuel : ℕ} (hfuel : fuel ≥ ipAddrSize) (heap : ℕ → SocketIDCells)
    (key1 key2 : ℕ) : compareKeysAt fuel heap key1 key2=
      some (compareKeys (heap key1).socketId (heap key2).socketId) := by
  unfold compareKeysAt
  split
  · next h =>
    rw [h,(compareKeys_iff _ _).mpr rfl]
  · obtain ⟨_,hsrc,_⟩ := strcmpTOf_spec (heap key1).srcIp (heap key2).srcIp
    obtain ⟨_,hdst,_⟩ := strcmpTOf_spec (heap key1).dstIp (heap key2).dstIp
    rw [hsrc fuel hfuel,hdst fuel hfuel,compareKeys]
    simp only [SocketIDCells.socketId,Option.bind_some,Option.map_some]
    split
    · next hport => simp [hport]
    · next hport =>
      split
      · next hip => simp [hip]
      · next hip =>
        split
        · next hport' => simp [hport']
        · next hport' =>
          simp only [not_not] at hport hip hport'
          simp only [hport,hip,hport',decide_true,Bool.and_self,Bool.true_and]
          rfl

/-- A copy that stays within the cells from a place on. -/
theorem strcpyTLoop_within (source : ℕ → Byte) (room i : ℕ) :
    ∀ store∈(strcpyTLoop source room i).stores,i ≤ store.1 ∧ store.1 ≤ i+room := by
  induction room generalizing i with
  | zero =>
    intro store hstore
    obtain rfl := List.mem_singleton.mp hstore
    exact ⟨le_rfl,le_rfl⟩
  | succ room ih =>
    intro store hstore
    rw [strcpyTLoop] at hstore
    split at hstore
    · rcases List.mem_cons.mp hstore with rfl|hpad
      · exact ⟨le_rfl,Nat.le_add_right _ _⟩
      · obtain ⟨j,hj,rfl⟩ := List.mem_map.mp hpad
        have hlt := List.mem_range.mp hj
        exact ⟨by omega,by omega⟩
    · rcases List.mem_cons.mp hstore with rfl|hrest
      · exact ⟨le_rfl,Nat.le_add_right _ _⟩
      · have hwithin := ih (i+1) store hrest
        omega

/-- A store of the terminator ends the copy, whatever is behind it. -/
theorem terminator_copied {source : ℕ → Byte} {i : ℕ} (hzero : source i=0) (n : ℕ)
    (dest : ℕ → Byte) :
    let copied := perform dest ((i,0)::padding (i+1) n)
    charsFrom copied i (n+1)=charsFrom source i (n+1) ∧ ∃ k < n+1,copied (i+k)=0 := by
  intro copied
  have hcell : copied i=0 := by
    refine perform_cons_self dest i 0 fun store hstore => ?_
    obtain ⟨j,_,rfl⟩ := List.mem_map.mp hstore
    simp only
    omega
  exact ⟨by rw [charsFrom_of_zero n hcell,charsFrom_of_zero n hzero],0,Nat.succ_pos n,hcell⟩

/-- The copied cells hold the characters of the source up to a terminator. -/
theorem strcpyTLoop_copies {source : ℕ → Byte} {room i : ℕ}
    (h : ∃ k < room+1,source (i+k)=0) (dest : ℕ → Byte) :
    let copied := perform dest (strcpyTLoop source room i).stores
    charsFrom copied i (room+1)=charsFrom source i (room+1) ∧ ∃ k < room+1,copied (i+k)=0 := by
  induction room generalizing i dest with
  | zero =>
    obtain ⟨k,hk,hzero⟩ := h
    obtain rfl : k=0 := by omega
    exact terminator_copied hzero 0 dest
  | succ room ih =>
    by_cases hzero : source i=0
    · rw [strcpyTLoop,if_pos hzero]
      exact terminator_copied hzero (room+1) dest
    · intro copied
      have hbehind : ∀ store∈(strcpyTLoop source room (i+1)).stores,store.1≠i := by
        intro store hstore
        have hwithin := strcpyTLoop_within source room (i+1) store hstore
        omega
      have hcopied : copied=perform dest
          ((i,source i)::(strcpyTLoop source room (i+1)).stores) := by
        simp only [copied,strcpyTLoop,if_neg hzero]
      have hcell : copied i=source i := by rw [hcopied,perform_cons_self _ _ _ hbehind]
      obtain ⟨hchars,k,hk,hend⟩ := ih (terminated_next h hzero) (Function.update dest i (source i))
      have hrest : perform (Function.update dest i (source i))
          (strcpyTLoop source room (i+1)).stores=copied := by rw [hcopied]; rfl
      rw [hrest] at hchars hend
      refine ⟨?_,k+1,Nat.succ_lt_succ hk,by rwa [Nat.add_comm k,←Nat.add_assoc]⟩
      rw [charsFrom_of_ne _ (by rwa [hcell]),charsFrom_of_ne _ hzero,hcell,hchars]

/-- The stores to one ip of a copied identity stay within its array. -/
theorem copyStores_within (source : ℕ → Byte) : ∀ store∈copyStores source,store.1 < ipAddrSize := by
  intro store hstore
  rcases List.mem_append.mp hstore with hempty|hcopy
  · rcases List.mem_append.mp hempty with hletters|hend
    · obtain ⟨i,hi,rfl⟩ := List.mem_map.mp hletters
      exact (List.mem_range.mp hi).trans (by decide)
    · obtain rfl := List.mem_singleton.mp hend
      decide
  · have hwithin := strcpyTLoop_within source (ipAddrSize-1) 0 store hcopy
    have hsize : ipAddrSize=17 := rfl
    omega

/-- And they leave the string of the source there. -/
theorem copyStores_copies (source : IpArray) (fresh : ℕ → Byte) :
    charsFrom (perform fresh (copyStores source.cells)) 0 ipAddrSize=
        charsFrom source.cells 0 ipAddrSize ∧
      ∃ i < ipAddrSize,perform fresh (copyStores source.cells) i=0 := by
  have hends : ∃ k < ipAddrSize-1+1,source.cells (0+k)=0 := source.terminated_from_zero
  have hcopy := strcpyTLoop_copies hends (perform fresh ipSetEmpty)
  have hsplit : perform fresh (copyStores source.cells)=
      perform (perform fresh ipSetEmpty) (strcpyT source.cells).stores := by
    rw [copyStores,perform,List.foldl_append]
    rfl
  simp only [Nat.zero_add] at hcopy
  rw [hsplit]
  exact hcopy

/-- One ip of a copied identity, in fresh memory. -/
def copiedIp (fresh : ℕ → Byte) (source : IpArray) : IpArray :=
  ⟨perform fresh (copyStores source.cells),(copyStores_copies source fresh).2⟩

/-- `copy_socket_id`, into fresh memory for the two ips. -/
def copySocketId (freshSrc freshDst : ℕ → Byte) (id : SocketIDCells) : SocketIDCells where
  srcPort := id.srcPort
  dstPort := id.dstPort
  srcIp := copiedIp freshSrc id.srcIp
  dstIp := copiedIp freshDst id.dstIp

/-- A copied ip is the same string. -/
theorem copiedIp_string (fresh : ℕ → Byte) (source : IpArray) :
    (copiedIp fresh source).string=source.string :=
  CString.ext (copyStores_copies source fresh).1

/-- A copy is the same identity. -/
theorem copySocketId_socketId (freshSrc freshDst : ℕ → Byte) (id : SocketIDCells) :
    (copySocketId freshSrc freshDst id).socketId=id.socketId := by
  simp only [SocketIDCells.socketId,copySocketId,copiedIp_string]

/-- Keys in memory compare equal exactly when their ports and the strings in
their arrays are; `strcmp_t` reads no index behind a terminator and returns
zero for equal strings and otherwise the sign of the first difference; and a
copied identity compares equal to the original, with all stores within the
arrays of the copy. -/
theorem keys_compared_and_copied :
    (∀ heap key1 key2,∀ fuel ≥ ipAddrSize,∃ result,
      compareKeysAt fuel heap key1 key2=some result ∧
      (result=true ↔ ((heap key1).srcPort=(heap key2).srcPort ∧
          (heap key1).dstPort=(heap key2).dstPort) ∧
        (heap key1).srcIp.string=(heap key2).srcIp.string ∧
        (heap key1).dstIp.string=(heap key2).dstIp.string)) ∧
    (∀ string1 string2 : IpArray,∃ flag reads,
      (∀ fuel ≥ ipAddrSize,strcmpTOf fuel string1 string2=some (flag,reads)) ∧
      (∀ j∈reads,∀ l < j,string1.cells l≠0 ∧ string2.cells l≠0) ∧
      (flag=0 ↔ string1.string=string2.string) ∧
      ∀ d,(∀ l < d,string1.cells l=string2.cells l ∧ string1.cells l≠0) →
        string1.cells d≠string2.cells d →
        (flag < 0 ↔ charValue (string1.cells d) < charValue (string2.cells d)) ∧
        (flag > 0 ↔ charValue (string1.cells d) > charValue (string2.cells d))) ∧
    ∀ freshSrc freshDst id,
      ((∀ store∈copyStores id.srcIp.cells,store.1 < ipAddrSize) ∧
        ∀ store∈copyStores id.dstIp.cells,store.1 < ipAddrSize) ∧
      ∀ heap copy original,heap copy=copySocketId freshSrc freshDst id → heap original=id →
        ∀ fuel ≥ ipAddrSize,compareKeysAt fuel heap copy original=some true := by
  refine ⟨?_,?_,?_⟩
  · intro heap key1 key2 fuel hfuel
    refine ⟨_,compareKeysAt_eq hfuel heap key1 key2,?_⟩
    rw [compareKeys_iff]
    simp only [SocketIDCells.socketId,SocketID.mk.injEq,and_assoc]
  · intro string1 string2
    obtain ⟨reads,hloop,hreads⟩ := strcmpTOf_spec string1 string2
    refine ⟨_,reads,hloop,hreads,strcmpT_eq_zero_iff _ _,fun d hsame hne => ?_⟩
    have hfuel : d-0 < ipAddrSize+d+1 := by omega
    obtain ⟨_,hdifference⟩ := strcmpTLoop_difference (Nat.zero_le d) (fun l _ hl => hsame l hl) hne
      hfuel
    have hboth := (hloop (ipAddrSize+d+1) (by omega)).symm.trans hdifference
    obtain ⟨hflag,_⟩ := Prod.mk.inj (Option.some.inj hboth)
    rw [hflag]
    exact charOrder_sign _ _
  · intro freshSrc freshDst id
    refine ⟨⟨copyStores_within _,copyStores_within _⟩,?_⟩
    intro heap copy original hcopy horiginal fuel hfuel
    rw [compareKeysAt_eq hfuel,hcopy,horiginal,copySocketId_socketId,(compareKeys_iff _ _).mpr rfl]

end NetworkLayer.IpArrays

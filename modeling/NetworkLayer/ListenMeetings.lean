import NetworkLayer.ListenCalls
import NetworkLayer.OneWayFifos
import NetworkLayer.WaitingParties

/-!
# A listen call meets the visits of the manager

The two meet at the socket's two listen fifos: the limit goes one way and the
answer the other. Nobody else has these fifos open. Whoever has to wait waits
for a place that the other comes to, so the call ends.
-/

namespace NetworkLayer.ListenMeetings

open ByteStrings FormattedText UtilTypes FifoUtils FifoNames BindCalls
open FifoCalls OneWayFifos WaitingParties ListenCalls

/-- The fifos of a listen call. -/
def ownNames (sockid : SocketID) : List FifoName :=
  [getListenFifoWriteEndName sockid,getListenFifoReadEndName sockid,
    getAcceptFifoWriteEndName sockid]

/-- Different functions give different names, whatever the identity. -/
theorem ownNames_apart (sockid : SocketID) :
    getListenFifoWriteEndName sockid≠getListenFifoReadEndName sockid ∧
      getAcceptFifoWriteEndName sockid≠getListenFifoWriteEndName sockid ∧
      getAcceptFifoWriteEndName sockid≠getListenFifoReadEndName sockid := by
  have hapart : ∀ first second : NameCall,first.function≠second.function →
      first.name≠second.name := by
    intro first second hne hname
    rw [first.name_eq,second.name_eq] at hname
    exact hne (function_eq_of_stem (List.append_cancel_left hname))
  exact ⟨hapart (.listenWrite sockid) (.listenRead sockid) nofun,
    hapart (.acceptWrite sockid) (.listenWrite sockid) nofun,
    hapart (.acceptWrite sockid) (.listenRead sockid) nofun⟩

/-- What there is under a name that was free before a call: nothing yet, or the
file that was made under it. -/
def Shows (node : Node Byte) (file : ℕ) : Option (Bool × Pipe Byte) → Prop
  | none => node.linked=false ∧ node.file+1=file
  | some (linked,p) => node.Is linked file p

/-- A call and the visits to its socket. -/
structure Meeting where
  /-- The caller's identity. -/
  sockid : SocketID
  /-- What it writes. -/
  message : Byte
  /-- How long it waits where nobody answers. -/
  polls : ℕ
  /-- The manager's socket. -/
  sock : Socket
  /-- It does not listen yet. -/
  notListening : sock.state≠.listen
  /-- The file that the caller makes for the request. -/
  writeFile : ℕ
  /-- And for the answer. -/
  readFile : ℕ

namespace Meeting

variable (t : Meeting)

/-- The fifo for the request. -/
def writeFd : Fd FifoName := ⟨getListenFifoWriteEndName t.sockid,t.writeFile⟩

/-- The fifo for the answer. -/
def readFd : Fd FifoName := ⟨getListenFifoReadEndName t.sockid,t.readFile⟩

/-- The caller on its way to the answer that the request is granted. -/
def client : ℕ → Prog FifoName Byte (Option Status)
  | 0 => .call (.mkfifo (getListenFifoWriteEndName t.sockid)) fun (made : Bool) =>
    if made=true then makeListenRead t.sockid t.message t.polls else .done (some .memoryError)
  | 1 => makeListenRead t.sockid t.message t.polls
  | 2 => openListenRead t.sockid t.message t.polls
  | 3 => .call (.join t.readFd .reading 0) fun _ =>
    openListenWrite t.sockid t.message t.polls t.readFd
  | 4 => openListenWrite t.sockid t.message t.polls t.readFd
  | 5 => .call (.join t.writeFd .writing 0) fun _ =>
    requestListen t.sockid t.message t.polls t.readFd t.writeFd
  | 6 => requestListen t.sockid t.message t.polls t.readFd t.writeFd
  | 7 => .call (.close t.writeFd .writing) fun _ => awaitListenAnswer t.sockid t.readFd t.polls
  | 8 => awaitListenAnswer t.sockid t.readFd t.polls
  | 9 => leaveListen t.sockid t.readFd .success
  | 10 => calling [.unlink (getListenFifoReadEndName t.sockid),
      .unlink (getListenFifoWriteEndName t.sockid)] (.done (some .success))
  | 11 => calling [.unlink (getListenFifoWriteEndName t.sockid)] (.done (some .success))
  | _ => .done (some .success)

/-- The manager's socket once the request is granted. -/
def granted : Socket := listening t.sock t.message .listen

/-- The manager on its way through the visit in which it grants it. -/
def manager : ℕ → Prog FifoName Byte (Option Socket)
  | 0 => .done (some t.sock)
  | 1 => openListenRequest t.sockid t.sock t.readFd
  | 2 => .call (.join t.writeFd .reading 0) fun _ =>
    readListen t.sockid t.sock t.readFd t.writeFd
  | 3 => readListen t.sockid t.sock t.readFd t.writeFd
  | 4 => makeAccept t.sockid t.sock t.message t.readFd t.writeFd
  | 5 => answerListen t.sock t.message t.readFd t.writeFd
  | 6 => calling [.close t.writeFd .reading,.close t.readFd .writing] (.done (some t.granted))
  | 7 => calling [.close t.readFd .writing] (.done (some t.granted))
  | _ => .done (some t.granted)

/-- What they wait for: the caller for the manager to look at its fifo, to open
the other one and to answer, the manager for the caller to be there, to open
the other fifo and to write its request. -/
def guards : Guards where
  firstEnd := 12
  secondEnd := 8
  first := fun
    | 3 => 1
    | 5 => 2
    | 8 => 6
    | _ => 0
  second := fun
    | 0 => 3
    | 2 => 5
    | 3 => 7
    | _ => 0

/-- At no two places both wait. -/
theorem guards_live : guards.Live where
  first_le := by decide
  second_le := by decide
  apart := by decide

/-- The fifo for the request. -/
def writeShape (c m : ℕ) : Option (Bool × Pipe Byte) :=
  if c=0 then none
  else some (decide (c < 12),between (endAt 1 6 m) (endAt 4 7 c)
    (if 6 < c && m ≤ 3 then [t.message] else []))

/-- The fifo for the answer. -/
def readShape (c m : ℕ) : Option (Bool × Pipe Byte) :=
  if c ≤ 1 then none
  else some (decide (c < 11),between (endAt 2 9 c) (endAt 0 7 m)
    (if c ≤ 8 && 5 < m then [requestGrantedFifo] else []))

/-- The fifos when the two have come to their places. -/
structure Layout (fifos : Fifos FifoName Byte) (c m : ℕ) : Prop where
  write : Shows (fifos (getListenFifoWriteEndName t.sockid)) t.writeFile (t.writeShape c m)
  read : Shows (fifos (getListenFifoReadEndName t.sockid)) t.readFile (readShape c m)
  accept : (fifos (getAcceptFifoWriteEndName t.sockid)).linked=decide (4 < m)

variable {t} {fifos : Fifos FifoName Byte} {c m : ℕ}

/-- Only the fifo for the request changes. -/
theorem Layout.write_changes (h : t.Layout fifos c m) {fifos' : Fifos FifoName Byte} {c' m' : ℕ}
    (hothers : ∀ name≠getListenFifoWriteEndName t.sockid,fifos' name=fifos name)
    (hwrite : Shows (fifos' (getListenFifoWriteEndName t.sockid)) t.writeFile
      (t.writeShape c' m'))
    (hread : readShape c' m'=readShape c m) (haccept : decide (4 < m')=decide (4 < m)) :
    t.Layout fifos' c' m' := by
  obtain ⟨hwr,haw,har⟩ := ownNames_apart t.sockid
  refine ⟨hwrite,?_,?_⟩
  · rw [hothers _ hwr.symm,hread]
    exact h.read
  · rw [hothers _ haw,haccept]
    exact h.accept

/-- Only the fifo for the answer changes. -/
theorem Layout.read_changes (h : t.Layout fifos c m) {fifos' : Fifos FifoName Byte} {c' m' : ℕ}
    (hothers : ∀ name≠getListenFifoReadEndName t.sockid,fifos' name=fifos name)
    (hread : Shows (fifos' (getListenFifoReadEndName t.sockid)) t.readFile (readShape c' m'))
    (hwrite : t.writeShape c' m'=t.writeShape c m) (haccept : decide (4 < m')=decide (4 < m)) :
    t.Layout fifos' c' m' := by
  obtain ⟨hwr,haw,har⟩ := ownNames_apart t.sockid
  refine ⟨?_,hread,?_⟩
  · rw [hothers _ hwr,hwrite]
    exact h.write
  · rw [hothers _ har,haccept]
    exact h.accept

/-- The caller that waits for an answer reads it once it is there. -/
theorem awaitListenAnswer_call (sockid : SocketID) (listenFifoReadFd : Fd FifoName) (polls : ℕ) :
    ∃ rest,awaitListenAnswer sockid listenFifoReadFd polls=.call (.read listenFifoReadFd) rest ∧
      rest (some requestGrantedFifo)=leaveListen sockid listenFifoReadFd .success := by
  cases polls with
  | zero => exact ⟨_,rfl,rfl⟩
  | succ polls => exact ⟨_,rfl,rfl⟩

/-- What a call leaves of the fifo for the request, the program goes on with. -/
theorem Layout.writes (h : t.Layout fifos c m) {c' m' : ℕ} {A : Type}
    {call : Call FifoName Byte} {rest : call.Result → Prog FifoName Byte A} {result : call.Result}
    {linked : Bool} {p : Pipe Byte} (hleaves : Leaves fifos call result
      (getListenFifoWriteEndName t.sockid) linked t.writeFile p)
    (hwrite : t.writeShape c' m'=some (linked,p)) (hread : readShape c' m'=readShape c m)
    (haccept : decide (4 < m')=decide (4 < m)) :
    ∃ fifos',(Prog.call call rest).step fifos=some (rest result,fifos') ∧
      t.Layout fifos' c' m' := by
  obtain ⟨fifos',hperform,hothers,hnode⟩ := hleaves
  refine ⟨fifos',Prog.step_call hperform,h.write_changes hothers ?_ hread haccept⟩
  rw [hwrite]
  exact hnode

/-- The same of the fifo for the answer. -/
theorem Layout.reads (h : t.Layout fifos c m) {c' m' : ℕ} {A : Type}
    {call : Call FifoName Byte} {rest : call.Result → Prog FifoName Byte A} {result : call.Result}
    {linked : Bool} {p : Pipe Byte} (hleaves : Leaves fifos call result
      (getListenFifoReadEndName t.sockid) linked t.readFile p)
    (hread : readShape c' m'=some (linked,p)) (hwrite : t.writeShape c' m'=t.writeShape c m)
    (haccept : decide (4 < m')=decide (4 < m)) :
    ∃ fifos',(Prog.call call rest).step fifos=some (rest result,fifos') ∧
      t.Layout fifos' c' m' := by
  obtain ⟨fifos',hperform,hothers,hnode⟩ := hleaves
  refine ⟨fifos',Prog.step_call hperform,h.read_changes hothers ?_ hwrite haccept⟩
  rw [hread]
  exact hnode

/-- The caller passes its place. -/
theorem client_moves (h : t.Layout fifos c m) (hw : guards.Within ⟨c,m⟩)
    (hpasses : guards.Passes ⟨c,m⟩ .first) :
    ∃ fifos',(t.client c).step fifos=some (t.client (c+1),fifos') ∧
      t.Layout fifos' (c+1) m := by
  have hbehind : ∀ k < m,guards.second k ≤ c := hw.second_passed
  have hbefore : ∀ k < c,guards.first k ≤ m := hw.first_passed
  have hguard : guards.first c ≤ m := hpasses.2
  have hlast : c < 12 := hpasses.1
  have hstart : c < 3 → m=0 := by
    intro hlt
    by_contra hne
    have hthere : 3 ≤ c := hbehind 0 (Nat.pos_of_ne_zero hne)
    omega
  match c with
  | 0 =>
    obtain rfl := hstart (by decide)
    have hmakes := makes h.write.1
    rw [h.write.2] at hmakes
    exact h.writes hmakes rfl rfl rfl
  | 1 =>
    obtain rfl := hstart (by decide)
    have hmakes := makes h.read.1
    rw [h.read.2] at hmakes
    exact h.reads hmakes rfl rfl rfl
  | 2 =>
    obtain rfl := hstart (by decide)
    exact h.reads (opens_reading h.read (by decide)) rfl rfl rfl
  | 3 =>
    have hopened : endAt 0 7 m≠.away := endAt_ne_away (Nat.lt_of_lt_of_le Nat.one_pos hguard)
    exact ⟨_,Prog.step_call (perform_join h.read (otherOpens_reading.mpr hopened)),
      h.write,h.read,h.accept⟩
  | 4 =>
    have hm : m ≤ 2 := by
      by_contra hlt
      exact absurd (hbehind 2 (by omega)) (by decide)
    exact h.writes (opens_writing h.write (endAt_ne_gone (by omega))) rfl rfl rfl
  | 5 =>
    have hopened : endAt 1 6 m≠.away := endAt_ne_away hguard
    exact ⟨_,Prog.step_call (perform_join h.write (otherOpens_writing.mpr hopened)),
      h.write,h.read,h.accept⟩
  | 6 =>
    have hm : 2 ≤ m ∧ m ≤ 3 := by
      refine ⟨hbefore 5 (by decide),?_⟩
      by_contra hlt
      exact absurd (hbehind 3 (by omega)) (by decide)
    obtain rfl|rfl : m=2 ∨ m=3 := by omega
    · exact h.writes (OneWayFifos.writes h.write [t.message]) rfl rfl rfl
    · exact h.writes (OneWayFifos.writes h.write [t.message]) rfl rfl rfl
  | 7 =>
    have hm : 2 ≤ m := hbefore 5 (by decide)
    -- with the request unread the manager has the fifo open
    have hempty : endAt 1 6 m≠.here → (if 6 < 7 && m ≤ 3 then [t.message] else [])=[] := by
      intro hgone
      have hread : ¬m ≤ 3 := fun hle => hgone (endAt_here (by omega) (by omega))
      simp [hread]
    exact h.writes (closes_writing h.write hempty) rfl rfl rfl
  | 8 =>
    obtain ⟨rest,hawait,hanswer⟩ := awaitListenAnswer_call t.sockid t.readFd t.polls
    have hm : m=6 ∨ m=7 ∨ m=8 := by
      have hgranted : 6 ≤ m := hguard
      have hend : m ≤ 8 := hw.second_le
      omega
    have hprogram : t.client 8=.call (.read t.readFd) rest := hawait
    have hnext : t.client 9=rest (some requestGrantedFifo) := hanswer.symm
    rw [hprogram,hnext]
    obtain rfl|rfl|rfl := hm
    all_goals exact h.reads (OneWayFifos.reads h.read) rfl rfl rfl
  | 9 => exact h.reads (closes_reading h.read fun _ => rfl) rfl rfl rfl
  | 10 => exact h.reads (unlinks h.read) rfl rfl rfl
  | 11 => exact h.writes (unlinks h.write) rfl rfl rfl
  | _+12 => omega

/-- The visit looks first for the fifo of the answer. -/
theorem visit_call (t : Meeting) :
    ∃ rest,resume (visits t.sockid) (t.manager 0)=
        .call (.openWriter (getListenFifoReadEndName t.sockid)) rest ∧
      rest none=t.manager 0 ∧ rest (some t.readFd)=t.manager 1 :=
  ⟨_,if_neg t.notListening,rfl,rfl⟩

/-- The manager passes its place. -/
theorem manager_moves (h : t.Layout fifos c m) (hw : guards.Within ⟨c,m⟩)
    (hpasses : guards.Passes ⟨c,m⟩ .second) :
    ∃ fifos',(resume (visits t.sockid) (t.manager m)).step fifos=some (t.manager (m+1),fifos') ∧
      t.Layout fifos' c (m+1) := by
  have hbehind : ∀ k < m,guards.second k ≤ c := hw.second_passed
  have hbefore : ∀ k < c,guards.first k ≤ m := hw.first_passed
  have hguard : guards.second m ≤ c := hpasses.2
  have hend : c ≤ 12 := hw.first_le
  have hlast : m < 8 := hpasses.1
  have hunanswered : m < 6 → c ≤ 8 := by
    intro hlt
    by_contra hle
    have hanswered : 6 ≤ m := hbefore 8 (by omega)
    omega
  match m with
  | 0 =>
    have hc : c ≤ 3 := by
      by_contra hlt
      exact absurd (hbefore 3 (by omega)) (by decide)
    obtain rfl : c=3 := le_antisymm hc hguard
    obtain ⟨rest,hvisit,_,hopened⟩ := t.visit_call
    rw [hvisit,←hopened]
    exact h.reads (opens_writer h.read) rfl rfl rfl
  | 1 =>
    have hc : 3 ≤ c ∧ c ≤ 5 := by
      refine ⟨hbehind 0 Nat.one_pos,?_⟩
      by_contra hlt
      exact absurd (hbefore 5 (by omega)) (by decide)
    obtain rfl|rfl|rfl : c=3 ∨ c=4 ∨ c=5 := by omega
    all_goals exact h.writes (opens_reading h.write (by decide)) rfl rfl rfl
  | 2 =>
    have hc : 5 ≤ c := hguard
    have hopened : endAt 4 7 c≠.away := endAt_ne_away hc
    have hmade : t.writeShape c 2=some (decide (c < 12),between .here (endAt 4 7 c)
        (if 6 < c && 2 ≤ 3 then [t.message] else [])) := if_neg (by omega)
    have hwrite := h.write
    rw [hmade] at hwrite
    exact ⟨_,Prog.step_call (perform_join hwrite (otherOpens_reading.mpr hopened)),
      h.write,h.read,h.accept⟩
  | 3 =>
    have hc : 7 ≤ c ∧ c ≤ 8 := ⟨hguard,hunanswered (by decide)⟩
    obtain rfl|rfl : c=7 ∨ c=8 := by omega
    all_goals exact h.writes (OneWayFifos.reads h.write) rfl rfl rfl
  | 4 =>
    have hfree : (fifos (getAcceptFifoWriteEndName t.sockid)).linked=false := h.accept
    obtain ⟨_,haw,har⟩ := ownNames_apart t.sockid
    refine ⟨_,Prog.step_call (perform_mkfifo hfree),?_,?_,(makeFifo_self ..).linked_eq⟩
    · rw [makeFifo_of_ne haw.symm]
      exact h.write
    · rw [makeFifo_of_ne har.symm]
      exact h.read
  | 5 =>
    have hc : 7 ≤ c ∧ c ≤ 8 := ⟨hbehind 3 (by omega),hunanswered (by decide)⟩
    obtain rfl|rfl : c=7 ∨ c=8 := by omega
    all_goals exact h.reads (OneWayFifos.writes h.read [requestGrantedFifo]) rfl rfl rfl
  | 6 =>
    have hc : 7 ≤ c := hbehind 3 (by omega)
    have hmade : t.writeShape c 6=some (decide (c < 12),between .here (endAt 4 7 c) []) := by
      rw [writeShape,if_neg (by omega)]
      simp [endAt]
    have hclosed : t.writeShape c 7=some (decide (c < 12),between .gone (endAt 4 7 c) []) := by
      rw [writeShape,if_neg (by omega)]
      simp [endAt]
    have hwrite := h.write
    rw [hmade] at hwrite
    exact h.writes (closes_reading hwrite fun _ => rfl) hclosed rfl rfl
  | 7 =>
    have hc : 7 ≤ c := hbehind 3 (by omega)
    have hmade : readShape c 7=some (decide (c < 11),between (endAt 2 9 c) .here
        (if c ≤ 8 && 5 < 7 then [requestGrantedFifo] else [])) := if_neg (by omega)
    have hclosed : readShape c 8=some (decide (c < 11),between (endAt 2 9 c) .gone
        (if c ≤ 8 && 5 < 7 then [requestGrantedFifo] else [])) := if_neg (by omega)
    have hread := h.read
    rw [hmade] at hread
    -- with the answer unread the caller has the fifo open
    refine h.reads (closes_writing hread ?_) hclosed rfl rfl
    intro hgone
    have hleft : ¬c ≤ 8 := fun hle => hgone (endAt_here (by omega) (by omega))
    simp [hleft]
  | _+8 => omega

/-- A caller that cannot pass its place has returned or waits. -/
theorem client_waits (h : t.Layout fifos c m) (hw : guards.Within ⟨c,m⟩)
    (hstays : ¬guards.Passes ⟨c,m⟩ .first) : (t.client c).step fifos=none := by
  have hend : c ≤ 12 := hw.first_le
  have hbefore : c < 12 → m < guards.first c := fun hlt =>
    Nat.lt_of_not_le fun hle => hstays ⟨hlt,hle⟩
  match c with
  | 0 | 1 | 2 | 4 | 6 | 7 | 9 | 10 | 11 => exact absurd (hbefore (by omega)) (Nat.not_lt_zero m)
  | 3 =>
    obtain rfl : m=0 := Nat.lt_one_iff.mp (hbefore (by omega))
    exact Prog.step_waits (join_reading_waits h.read)
  | 5 =>
    have hm : m < 2 := hbefore (by omega)
    obtain rfl|rfl : m=0 ∨ m=1 := by omega
    all_goals exact Prog.step_waits (join_writing_waits h.write)
  | 8 =>
    obtain ⟨rest,hawait,_⟩ := awaitListenAnswer_call t.sockid t.readFd t.polls
    have hprogram : t.client 8=.call (.read t.readFd) rest := hawait
    have hm : m < 6 := hbefore (by omega)
    have hpassed : ∀ k < 8,guards.first k ≤ m := hw.first_passed
    have hthere : 2 ≤ m := hpassed 5 (by decide)
    rw [hprogram]
    obtain rfl|rfl|rfl|rfl : m=2 ∨ m=3 ∨ m=4 ∨ m=5 := by omega
    all_goals exact Prog.step_waits (read_waits h.read)
  | 12 => rfl
  | _+13 => omega

/-- A manager that cannot pass its place is done with the call, waits, or finds
that nobody is there. -/
theorem manager_waits (h : t.Layout fifos c m) (hw : guards.Within ⟨c,m⟩)
    (hstays : ¬guards.Passes ⟨c,m⟩ .second) :
    (resume (visits t.sockid) (t.manager m)).step fifos=none ∨
      (resume (visits t.sockid) (t.manager m)).step fifos=some (t.manager m,fifos) := by
  have hend : m ≤ 8 := hw.second_le
  have hbehind : ∀ k < m,guards.second k ≤ c := hw.second_passed
  have hbefore : m < 8 → c < guards.second m := fun hlt =>
    Nat.lt_of_not_le fun hle => hstays ⟨hlt,hle⟩
  match m with
  | 0 =>
    obtain ⟨rest,hvisit,hnone,_⟩ := t.visit_call
    have hc : c < 3 := hbefore (by omega)
    refine .inr ?_
    have habsent : perform (.openWriter (getListenFifoReadEndName t.sockid)) fifos=
        some (none,fifos) := by
      obtain rfl|rfl|rfl : c=0 ∨ c=1 ∨ c=2 := by omega
      · exact perform_openWriter_none ⟨h.read.1,rfl,rfl⟩ fun hlinked =>
          absurd hlinked Bool.false_ne_true
      · exact perform_openWriter_none ⟨h.read.1,rfl,rfl⟩ fun hlinked =>
          absurd hlinked Bool.false_ne_true
      · exact perform_openWriter_none h.read fun _ => rfl
    rw [hvisit,Prog.step_call habsent,hnone]
  | 1 | 4 | 5 | 6 | 7 => exact absurd (hbefore (by omega)) (Nat.not_lt_zero c)
  | 2 =>
    have hc : c < 5 := hbefore (by omega)
    have hthere : 3 ≤ c := hbehind 0 (by omega)
    obtain rfl|rfl : c=3 ∨ c=4 := by omega
    all_goals exact .inl (Prog.step_waits (join_reading_waits h.write))
  | 3 =>
    have hc : c < 7 := hbefore (by omega)
    have hthere : 5 ≤ c := hbehind 2 (by omega)
    obtain rfl|rfl : c=5 ∨ c=6 := by omega
    all_goals exact .inl (Prog.step_waits (read_waits h.write))
  | 8 => exact .inl rfl
  | _+9 => omega

/-- A manager that waits is in the middle of its visit. -/
theorem resume_resume (t : Meeting) (m : ℕ) :
    resume (visits t.sockid) (resume (visits t.sockid) (t.manager m))=
      resume (visits t.sockid) (t.manager m) := by
  match m with
  | 0 =>
    obtain ⟨rest,hvisit,_⟩ := t.visit_call
    rw [hvisit]
    rfl
  | 1 | 2 | 3 | 4 | 5 | 6 | 7 | _+8 => rfl

variable (t) in
/-- The two are at their places. -/
structure At (s : Processes FifoName Byte (Option Status) (Option Socket)) (p : Places) : Prop where
  first : s.first=t.client p.first
  second : s.second=t.manager p.second ∨ s.second=resume (visits t.sockid) (t.manager p.second)
  layout : t.Layout s.fifos p.first p.second

variable {s : Processes FifoName Byte (Option Status) (Option Socket)} {p : Places}

theorem At.resume_eq (h : t.At s p) :
    resume (visits t.sockid) s.second=resume (visits t.sockid) (t.manager p.second) := by
  rcases h.second with hsecond|hsecond
  · rw [hsecond]
  · rw [hsecond,t.resume_resume]

/-- The others' fifos may be anything. -/
theorem Layout.congr (h : t.Layout fifos c m) {fifos' : Fifos FifoName Byte}
    (hown : ∀ name∈ownNames t.sockid,fifos' name=fifos name) : t.Layout fifos' c m := by
  refine ⟨?_,?_,?_⟩
  · rw [hown _ (by simp [ownNames])]
    exact h.write
  · rw [hown _ (by simp [ownNames])]
    exact h.read
  · rw [hown _ (by simp [ownNames])]
    exact h.accept

/-- Whose turn it is. -/
def partyOf : Turn FifoName Byte → Option Party
  | .first => some .first
  | .second => some .second
  | .others _ => none

/-- A step takes them to their next places. -/
theorem At.step (h : t.At s p) (hw : guards.Within p) (turn : Turn FifoName Byte) :
    t.At (s.step (visits t.sockid) (ownNames t.sockid) turn) (guards.step p (partyOf turn)) := by
  cases turn with
  | first =>
    by_cases hpasses : guards.Passes p .first
    · obtain ⟨fifos',hstep,hlayout⟩ := client_moves h.layout hw hpasses
      rw [←h.first] at hstep
      rw [Processes.step_first hstep,partyOf,Guards.step,if_pos hpasses]
      exact ⟨rfl,h.second,hlayout⟩
    · have hwaits := client_waits h.layout hw hpasses
      rw [←h.first] at hwaits
      rw [Processes.step_first_waits hwaits,partyOf,Guards.step,if_neg hpasses]
      exact h
  | second =>
    by_cases hpasses : guards.Passes p .second
    · obtain ⟨fifos',hstep,hlayout⟩ := manager_moves h.layout hw hpasses
      rw [←h.resume_eq] at hstep
      rw [Processes.step_second hstep,partyOf,Guards.step,if_pos hpasses]
      exact ⟨h.first,.inl rfl,hlayout⟩
    · rw [partyOf,Guards.step,if_neg hpasses]
      rcases manager_waits h.layout hw hpasses with hwaits|hagain
      · rw [←h.resume_eq] at hwaits
        rw [Processes.step_second_waits hwaits]
        exact ⟨h.first,.inr h.resume_eq,h.layout⟩
      · rw [←h.resume_eq] at hagain
        rw [Processes.step_second hagain]
        exact ⟨h.first,.inl rfl,h.layout⟩
  | others fifos' =>
    exact ⟨h.first,h.second,h.layout.congr fun _ hown => Processes.others_own hown fifos'⟩

/-- And so a run to where their guards let them be. -/
theorem At.after (h : t.At s ⟨0,0⟩) (turns : ℕ → Turn FifoName Byte) (n : ℕ) :
    t.At (s.after (visits t.sockid) (ownNames t.sockid) turns n)
      (guards.after ⟨0,0⟩ (fun k => partyOf (turns k)) n) := by
  induction n with
  | zero => exact h
  | succ n ih => exact ih.step (guards.within_start.after _ n) (turns n)

end Meeting

/-- A char holds every limit that passes the check. -/
theorem charValue_limitMessage {queueLimit : ℤ} (h : 0 ≤ queueLimit ∧ queueLimit ≤ 100) :
    charValue (limitMessage queueLimit)=queueLimit := by
  obtain ⟨limit,rfl⟩ := Int.eq_ofNat_of_zero_le h.1
  have hle : limit ≤ 100 := by exact_mod_cast h.2
  have hvalue : (UInt8.ofNat limit).toNat=limit := by
    rw [UInt8.toNat_ofNat',Nat.mod_eq_of_lt (by omega)]
  rw [charValue,limitMessage,Int.toNat_natCast,hvalue,if_pos (by omega)]

/-- Each process comes to its turn again and again. -/
def Fair (turns : ℕ → Turn FifoName Byte) : Prop :=
  (∀ n,∃ k ≥ n,turns k=.first) ∧ ∀ n,∃ k ≥ n,turns k=.second

variable {sockid : SocketID} {queueLimit : ℤ} {sock : Socket} {fifos : Fifos FifoName Byte}

/-- A listen call of a bound socket is granted, whatever the order in which the
caller and the manager get their turns: none of the two is left waiting. -/
theorem listen_granted (hlimit : 0 ≤ queueLimit ∧ queueLimit ≤ 100)
    (hbound : getSocketState sockid=.boundOnly) (hsock : sock.state≠.listen)
    (hfree : ∀ name∈ownNames sockid,(fifos name).linked=false) (polls : ℕ)
    {turns : ℕ → Turn FifoName Byte} (hfair : Fair turns) :
    ∃ n,∀ k ≥ n,∃ fifos',
      Processes.after (visits sockid) (ownNames sockid)
        ⟨socketListen sockid queueLimit polls,.done (some sock),fifos⟩ turns k=
        ⟨.done (some .success),
          .done (some {sock with state := .listen,maxConnections := queueLimit}),fifos'⟩ ∧
      (fifos' (getListenFifoWriteEndName sockid)).linked=false ∧
      (fifos' (getListenFifoReadEndName sockid)).linked=false ∧
      (fifos' (getAcceptFifoWriteEndName sockid)).linked=true := by
  let t : Meeting := {
    sockid := sockid
    message := limitMessage queueLimit
    polls := polls
    sock := sock
    notListening := hsock
    writeFile := (fifos (getListenFifoWriteEndName sockid)).file+1
    readFile := (fifos (getListenFifoReadEndName sockid)).file+1}
  have hcall : socketListen sockid queueLimit polls=t.client 0 := by
    rw [socketListen,if_neg (by omega),if_neg (not_not.mpr hbound)]
    rfl
  have hstart : t.At ⟨socketListen sockid queueLimit polls,.done (some sock),fifos⟩ ⟨0,0⟩ := by
    refine ⟨hcall,.inl rfl,⟨hfree _ ?_,rfl⟩,⟨hfree _ ?_,rfl⟩,hfree _ ?_⟩
    all_goals simp [ownNames,t]
  have hturns : WaitingParties.Fair fun k => Meeting.partyOf (turns k) := by
    intro party n
    cases party with
    | first =>
      obtain ⟨k,hk,hturn⟩ := hfair.1 n
      exact ⟨k,hk,congrArg Meeting.partyOf hturn⟩
    | second =>
      obtain ⟨k,hk,hturn⟩ := hfair.2 n
      exact ⟨k,hk,congrArg Meeting.partyOf hturn⟩
  obtain ⟨n,hends⟩ := Meeting.guards_live.ends Meeting.guards.within_start hturns
  refine ⟨n,?_⟩
  intro k hk
  have hat := hstart.after turns k
  rw [hends k hk] at hat
  generalize Processes.after (visits sockid) (ownNames sockid)
    ⟨socketListen sockid queueLimit polls,.done (some sock),fifos⟩ turns k=s at hat
  obtain ⟨first,second,fifos'⟩ := s
  have hfirst : first=.done (some .success) := hat.first
  have hsecond : second=.done (some t.granted) := by
    rcases hat.second with hsecond|hsecond
    · exact hsecond
    · exact hsecond
  have hgranted : t.granted={sock with state := .listen,maxConnections := queueLimit} := by
    rw [Meeting.granted,listening,charValue_limitMessage hlimit]
  rw [hgranted] at hsecond
  obtain ⟨hwrite,hread,haccept⟩ := hat.layout
  exact ⟨fifos',by rw [hfirst,hsecond],hwrite.linked_eq,hread.linked_eq,haccept⟩

/-- A listener on port 80 that nobody else disturbs, the turns one by one. -/
theorem listen_granted_alternating :
    ∃ n,∀ k ≥ n,∃ fifos',
      Processes.after (visits listener80.id) (ownNames listener80.id)
        ⟨socketListen listener80.id 5 0,.done (some {listener80 with state := .closed}),
          fun _ => ⟨false,0,fun _ => Pipe.new⟩⟩
        (fun n => if n%2=0 then .first else .second) k=
        ⟨.done (some .success),.done (some listener80),fifos'⟩ ∧
      (fifos' (getListenFifoWriteEndName listener80.id)).linked=false ∧
      (fifos' (getListenFifoReadEndName listener80.id)).linked=false ∧
      (fifos' (getAcceptFifoWriteEndName listener80.id)).linked=true := by
  refine listen_granted (by decide) (by decide) (by decide) (fun _ _ => rfl) 0 ⟨?_,?_⟩
  · intro n
    exact ⟨2*n,by omega,if_pos (by omega)⟩
  · intro n
    exact ⟨2*n+1,by omega,if_neg (by omega)⟩

end NetworkLayer.ListenMeetings

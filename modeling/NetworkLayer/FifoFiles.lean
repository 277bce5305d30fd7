import NetworkLayer.PacketDispatch

/-!
# Which fifo files exist

The names of a socket's fifos differ from one kind to the next, and for the
sockets of one ip from one socket to the next. What the functions that make
and unlink fifos leave of each file follows from this.
-/

namespace NetworkLayer.FifoFiles

open ByteStrings FormattedText UtilTypes FifoUtils PacketDispatch

/-- Unlinking takes the names away and no others. -/
theorem foldl_unlink (names : List FifoName) (files : Files) (name : FifoName) :
    names.foldl unlink files name=if name∈names then false else files name := by
  induction names generalizing files with
  | nil => simp
  | cons first rest ih =>
    rw [List.foldl_cons,ih,unlink]
    by_cases hrest : name∈rest
    · simp [hrest]
    · by_cases hname : name=first
      · simp [hname]
      · simp [hrest,hname]

/-- Unlinking names changes nothing exactly where none of them exists. -/
theorem foldl_unlink_eq_self_iff (names : List FifoName) (files : Files) :
    names.foldl unlink files=files ↔ ∀ name∈names,files name=false := by
  constructor
  · intro h name hname
    have hat := congrFun h name
    rw [foldl_unlink,if_pos hname] at hat
    exact hat.symm
  · intro h
    funext name
    rw [foldl_unlink]
    split
    · next hname => exact (h name hname).symm
    · rfl

/-- Two kinds of names whose stems have different characters in one place. -/
theorem fifoName_ne_of_stem {stem stem' : List Byte} {k : ℕ} {a b : Byte}
    (ha : stem[k]?=some a) (hb : stem'[k]?=some b) (hne : a≠b) (id id' : SocketID) :
    constructFullSocketFifoName stem id≠constructFullSocketFifoName stem' id' := by
  intro h
  unfold constructFullSocketFifoName constructFullFifoName addFolderPrefix at h
  have hstems := congrArg (fun name => name[k]?) (List.append_cancel_left h)
  obtain ⟨hlt,_⟩ := List.getElem?_eq_some_iff.mp ha
  obtain ⟨hlt',_⟩ := List.getElem?_eq_some_iff.mp hb
  simp only [List.getElem?_append_left hlt,List.getElem?_append_left hlt',ha,hb,
    Option.some.injEq] at hstems
  exact hne hstems

/-- The underscore is in no printed number. -/
theorem underscore_notMem_printInt (v : ℤ) : (95 : Byte)∉printInt v := by
  intro hmem
  rcases mem_printInt hmem with h|h
  · exact absurd h (by decide)
  · exact absurd h (by decide)

/-- A name of one kind ends with the partner's port, behind the last
underscore. -/
theorem fifoName_split {stem : List Byte} {id id' : SocketID}
    (h : constructFullSocketFifoName stem id=constructFullSocketFifoName stem id') :
    id.dstPort=id'.dstPort ∧ id.srcIp.chars++95::(printInt id.srcPort++95::id.dstIp.chars)=
      id'.srcIp.chars++95::(printInt id'.srcPort++95::id'.dstIp.chars) := by
  have hname : ∀ id : SocketID,constructFullSocketFifoName stem id=
      fifoFolderPathPrefix++(stem++(text "("++(id.srcIp.chars++95::(printInt id.srcPort++
        95::id.dstIp.chars))++95::printInt id.dstPort++text ")")) := by
    intro id
    have hunderscore : text "_"=[95] := by decide
    simp [constructFullSocketFifoName,constructFullFifoName,addFolderPrefix,hunderscore]
  rw [hname,hname] at h
  have hparts := List.append_cancel_right (List.append_cancel_left (List.append_cancel_left h))
  obtain ⟨hfront,hport⟩ := separator_append_injective (underscore_notMem_printInt _)
    (underscore_notMem_printInt _) hparts
  exact ⟨printInt_injective hport,List.append_cancel_left hfront⟩

/-- Names of one kind tell the sockets of one ip apart. -/
theorem fifoName_injective {stem : List Byte} {id id' : SocketID} (hip : id.srcIp=id'.srcIp)
    (h : constructFullSocketFifoName stem id=constructFullSocketFifoName stem id') : id=id' := by
  obtain ⟨hpartnerPort,hfront⟩ := fifoName_split h
  rw [hip] at hfront
  obtain ⟨hport,hpartnerIp⟩ := append_separator_injective (underscore_notMem_printInt _)
    (underscore_notMem_printInt _) (List.tail_eq_of_cons_eq (List.append_cancel_left hfront))
  have hsrcPort := printInt_injective hport
  have hdstIp := CString.ext hpartnerIp
  cases id
  cases id'
  simp_all

/-- What `create_socket_end_fifos` leaves: both files and no other change, or
neither file, whether they were there before or not. -/
theorem createSocketEndFifos_files (env : Env) (files : Files) (id : SocketID) :
    (createSocketEndFifos env files id).1=true ∧ EndFifosFree env files id ∧
        (createSocketEndFifos env files id).2=
          Function.update (Function.update files (getEndFifoReadEndName id) true)
            (getEndFifoWriteEndName id) true ∨
      (createSocketEndFifos env files id).1=false ∧ ¬EndFifosFree env files id ∧
        (createSocketEndFifos env files id).2=
          [getEndFifoReadEndName id,getEndFifoWriteEndName id].foldl unlink files := by
  have hne := endFifoNames_ne id
  unfold createSocketEndFifos EndFifosFree mkfifo
  by_cases hread : env.mkfifoWorks (getEndFifoReadEndName id)=true ∧
      files (getEndFifoReadEndName id)=false
  · simp only [if_pos hread,Function.update_of_ne hne.symm]
    by_cases hwrite : env.mkfifoWorks (getEndFifoWriteEndName id)=true ∧
        files (getEndFifoWriteEndName id)=false
    · exact Or.inl ⟨by simp [hwrite],⟨hread,hwrite⟩,by simp [hwrite]⟩
    · exact Or.inr ⟨by simp [hwrite],fun h => hwrite h.2,by simp [hwrite,unlink]⟩
  · exact Or.inr ⟨by simp [hread],fun h => hread h.1,by simp [hread,unlink]⟩

end NetworkLayer.FifoFiles

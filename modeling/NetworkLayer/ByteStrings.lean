import Mathlib.Data.List.TakeWhile
import Mathlib.Data.UInt

/-!
# Bytes and NUL-terminated strings

A C string is the list of its bytes before the terminator. The type carries
the absence of an inner NUL, so a string that ends early cannot be built.
Characters compare as signed values, as plain `char` does on the platform.
-/

namespace NetworkLayer.ByteStrings

/-- One `char` of a message, a buffer or a queue. -/
abbrev Byte := UInt8

/-- The bytes of a source literal, one for each ASCII character. -/
def text (literal : String) : List Byte := literal.toList.map fun c => UInt8.ofNat c.toNat

/-- The `int` a plain `char` is promoted to. -/
def charValue (b : Byte) : ℤ := if b.toNat < 128 then b.toNat else b.toNat-256

/-- Promotion loses nothing. -/
theorem charValue_injective : Function.Injective charValue := by
  intro a b h
  have ha := a.toNat_lt
  have hb := b.toNat_lt
  unfold charValue at h
  apply UInt8.toNat_inj.mp
  split at h <;> split at h <;> omega

/-- The content of a `char*`: its bytes up to the terminator. -/
structure CString where
  /-- The bytes before the terminator. -/
  chars : List Byte
  /-- No byte of the content is the terminator. -/
  nulFree : 0∉chars
  deriving DecidableEq

/-- The string a buffer holds: everything before its first NUL. -/
def CString.ofCells (cells : List Byte) : CString :=
  ⟨cells.takeWhile (fun b => b != 0),fun h => by
    have := List.mem_takeWhile_imp h
    simp at this⟩

/-- The empty string literal. -/
def CString.empty : CString := ⟨[],List.not_mem_nil⟩

/-- `strlen`. -/
def CString.strlen (s : CString) : ℕ := s.chars.length

/-- A byte that is not the terminator may be repeated. -/
theorem nulFree_replicate (n : ℕ) {b : Byte} (h : b≠0) : 0∉List.replicate n b :=
  fun hmem => h (List.eq_of_mem_replicate hmem).symm

/-- Sixteen ones have no terminator in them. -/
theorem nulFree_ones : (0 : Byte)∉List.replicate 16 49 := nulFree_replicate 16 (by decide)

/-- Two strings with the same bytes are the same string. -/
theorem CString.ext {s t : CString} (h : s.chars=t.chars) : s=t := by
  cases s
  cases t
  simpa only [CString.mk.injEq] using h

/-- A buffer is read up to the terminator behind its first bytes. -/
theorem CString.ofCells_terminated {word : List Byte} (h : 0∉word) :
    (CString.ofCells (word++[0])).chars=word := by
  have hword : ∀ b∈word,(b != 0)=true := by
    intro b hb
    have hne : b≠0 := fun he => h (he ▸ hb)
    simpa only [bne_iff_ne] using hne
  rw [CString.ofCells]
  simp only
  rw [List.takeWhile_append_of_pos hword]
  simp

/-- The string of terminated cells is no longer than what is in front of the
terminator. -/
theorem CString.strlen_ofCells_le (cells : List Byte) :
    (CString.ofCells (cells++[0])).strlen ≤ cells.length := by
  rw [CString.strlen,CString.ofCells]
  simp only [List.takeWhile_append]
  split
  · simp
  · exact (List.takeWhile_prefix _).length_le

/-- The sign of a comparison of two characters, as `strcmp_t` sets its flag. -/
def charOrder (a b : Byte) : ℤ :=
  if charValue a > charValue b then 1 else if charValue a < charValue b then -1 else 0

/-- `strcmp_t` on the bytes of two strings, the end of a list standing for
the terminator. -/
def strcmpT : List Byte → List Byte → ℤ
  | [],[] => 0
  | [],b::_ => charOrder 0 b
  | a::_,[] => charOrder a 0
  | a::as,b::bs =>
    if charOrder a b≠0 then charOrder a b else if a=0 then 0 else strcmpT as bs

/-- Equal promoted values are equal characters. -/
theorem charOrder_eq_zero_iff {a b : Byte} : charOrder a b=0 ↔ a=b := by
  constructor
  · intro h
    apply charValue_injective
    unfold charOrder at h
    split at h
    · omega
    · split at h <;> omega
  · rintro rfl
    simp [charOrder]

/-- `strcmp_t` returns zero exactly on equal strings. -/
theorem strcmpT_eq_zero_iff (s t : CString) : strcmpT s.chars t.chars=0 ↔ s=t := by
  obtain ⟨l,hl⟩ := s
  obtain ⟨m,hm⟩ := t
  rw [CString.mk.injEq]
  simp only
  induction l generalizing m with
  | nil =>
    cases m with
    | nil => simp [strcmpT]
    | cons b m =>
      have hb : (0 : Byte)≠b := fun h => hm (h ▸ List.mem_cons_self)
      simp [strcmpT,charOrder_eq_zero_iff,hb]
  | cons a l ih =>
    have ha : a≠0 := fun h => hl (h ▸ List.mem_cons_self)
    cases m with
    | nil => simp [strcmpT,charOrder_eq_zero_iff,ha]
    | cons b m =>
      have hrest := ih (fun h => hl (List.mem_cons_of_mem _ h)) m
        (fun h => hm (List.mem_cons_of_mem _ h))
      by_cases hab : a=b
      · subst hab
        simp [strcmpT,charOrder_eq_zero_iff.mpr,ha,hrest]
      · have ho : charOrder a b≠0 := fun h => hab (charOrder_eq_zero_iff.mp h)
        simp [strcmpT,ho,hab]

end NetworkLayer.ByteStrings

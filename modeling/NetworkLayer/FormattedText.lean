import NetworkLayer.ByteStrings
import NetworkLayer.DecimalWords

/-!
# Printing and scanning of decimal fields

The conversions of `sprintf` and `sscanf` that the packet and request
formats use. `%d` skips leading white space, which does not count towards
its width, and then takes a sign and digits, at most as many characters as
the width. What `%d` stores for a number that is no `int` is left to libc.
-/

namespace NetworkLayer.FormattedText

open ByteStrings DecimalWords

/-- Least value of the platform's `int`. -/
def intMin : ℤ := -2147483648

/-- Greatest value of the platform's `int`, which is also `RAND_MAX`. -/
def intMax : ℤ := 2147483647

/-- A value of type `int`. -/
def IsInt (v : ℤ) : Prop := intMin ≤ v ∧ v ≤ intMax

theorem isInt_zero : IsInt 0 := ⟨by decide,by decide⟩

/-- What is left in an `int` by an operation whose exact result is `v`: the
machine's `int`s wrap around. -/
def wrapInt (v : ℤ) : ℤ := v.bmod 4294967296

/-- What the language leaves open about the scanning functions. -/
structure Libc where
  /-- The `int` that `%d` stores for a number outside the range of `int`. -/
  overflow : ℤ → ℤ
  /-- Whatever it is, it is an `int`. -/
  overflow_int : ∀ v,intMin ≤ overflow v ∧ overflow v ≤ intMax

/-- A host whose `%d` stores 0 for a number that is no `int`. -/
def zeroLibc : Libc := ⟨fun _ => 0,fun _ => isInt_zero⟩

/-- A `%d` conversion stores the number it read, where an `int` can hold it. -/
def storeInt (libc : Libc) (v : ℤ) : ℤ :=
  if intMin ≤ v ∧ v ≤ intMax then v else libc.overflow v

/-- `isspace` in the default locale. -/
def isSpace (b : Byte) : Bool := b=32 || (9 ≤ b.toNat && b.toNat ≤ 13)

/-- `isdigit`. -/
def isDigit (b : Byte) : Bool := 48 ≤ b.toNat && b.toNat ≤ 57

/-- The character of a decimal digit. -/
def digitByte (d : ℕ) : Byte := UInt8.ofNat (48+d)

/-- The digit a character stands for. -/
def digitValue (b : Byte) : ℕ := b.toNat-48

/-- The value of a word of digit characters. -/
def decimalValue (word : List Byte) : ℕ := horner 10 (word.map digitValue)

/-- The decimal digits of a number, without leading zeros. -/
def decimal (n : ℕ) : List Byte :=
  if n=0 then [48] else (Nat.digits 10 n).reverse.map digitByte

/-- `%d`. -/
def printInt (v : ℤ) : List Byte :=
  if v < 0 then 45::decimal v.natAbs else decimal v.natAbs

/-- `%0Nd`: zeros between the sign and the digits up to the width. -/
def printIntZeros (width : ℕ) (v : ℤ) : List Byte :=
  let digits := decimal v.natAbs
  if v < 0 then 45::(List.replicate (width-1-digits.length) 48++digits)
  else List.replicate (width-digits.length) 48++digits

/-- `%Nd`: spaces before the sign up to the width. -/
def printIntSpaces (width : ℕ) (v : ℤ) : List Byte :=
  List.replicate (width-(printInt v).length) 32++printInt v

/-- The digits at the start of a field of limited width. -/
def scanDigits (width : ℕ) (field : List Byte) : Option (ℕ × List Byte) :=
  let digits := (field.take width).takeWhile isDigit
  if digits=[] then none else some (decimalValue digits,field.drop digits.length)

/-- `%Nd`: the stored value and the input left over, unless there is no
number at the start of the field. -/
def scanInt (libc : Libc) (width : ℕ) (input : List Byte) : Option (ℤ × List Byte) :=
  let field := input.dropWhile isSpace
  if field.head?=some 45 then
    (scanDigits (width-1) field.tail).map fun r => (storeInt libc (-(r.1 : ℤ)),r.2)
  else if field.head?=some 43 then
    (scanDigits (width-1) field.tail).map fun r => (storeInt libc r.1,r.2)
  else (scanDigits width field).map fun r => (storeInt libc r.1,r.2)

/-- `%c`: the next character, white space included. -/
def scanChar : List Byte → Option (Byte × List Byte)
  | [] => none
  | b::rest => some (b,rest)

/-- An ordinary character of the format has to be met literally. -/
def scanLiteral (expected : Byte) (input : List Byte) : Option (List Byte) :=
  if input.head?=some expected then some input.tail else none

/-- `%s`: the next word. -/
def scanWord (input : List Byte) : Option (List Byte × List Byte) :=
  let field := input.dropWhile isSpace
  let word := field.takeWhile fun b => !isSpace b
  if word=[] then none else some (word,field.drop word.length)

/-- A result that an `int` can hold is left as it is. -/
theorem wrapInt_of_int {v : ℤ} (hmin : intMin ≤ v) (hmax : v ≤ intMax) : wrapInt v=v := by
  unfold intMin at hmin
  unfold intMax at hmax
  exact Int.bmod_eq_of_le_mul_two (by omega) (by omega)

/-- A number that an `int` can hold is stored as it is. -/
theorem storeInt_of_int (libc : Libc) {v : ℤ} (hv : IsInt v) : storeInt libc v=v := if_pos hv

/-- Digit characters are exactly the bytes of digits. -/
theorem toNat_digitByte {d : ℕ} (hd : d < 10) : (digitByte d).toNat=48+d := by
  rw [digitByte,UInt8.toNat_ofNat',Nat.mod_eq_of_lt (by omega)]

@[simp] theorem digitValue_digitByte {d : ℕ} (hd : d < 10) : digitValue (digitByte d)=d := by
  rw [digitValue,toNat_digitByte hd,Nat.add_sub_cancel_left]

theorem isDigit_digitByte {d : ℕ} (hd : d < 10) : isDigit (digitByte d)=true := by
  simp only [isDigit,toNat_digitByte hd,Bool.and_eq_true,decide_eq_true_eq]
  omega

/-- A digit's character is the character of its digit. -/
theorem digitByte_digitValue {b : Byte} (h : isDigit b=true) : digitByte (digitValue b)=b := by
  simp only [isDigit,Bool.and_eq_true,decide_eq_true_eq] at h
  apply UInt8.toNat_inj.mp
  rw [digitByte,digitValue,UInt8.toNat_ofNat',Nat.add_sub_cancel' h.1,Nat.mod_eq_of_lt (by omega)]

/-- Digit characters stand for digits. -/
theorem digitValue_lt {b : Byte} (h : isDigit b=true) : digitValue b < 10 := by
  simp only [isDigit,Bool.and_eq_true,decide_eq_true_eq] at h
  rw [digitValue]
  omega

/-- A word of digit characters is printed from its digits. -/
theorem map_digitByte_digitValue {word : List Byte} (h : ∀ b∈word,isDigit b=true) :
    (word.map digitValue).map digitByte=word := by
  rw [List.map_map]
  exact (List.map_congr_left fun b hb => digitByte_digitValue (h b hb)).trans (List.map_id _)

/-- No digit is skipped as white space. -/
theorem isSpace_of_isDigit {b : Byte} (h : isDigit b=true) : isSpace b=false := by
  simp only [isDigit,Bool.and_eq_true,decide_eq_true_eq] at h
  have hne : b≠32 := by
    rintro rfl
    exact absurd h.1 (by decide)
  simp only [isSpace,hne,decide_false,Bool.false_or,Bool.and_eq_false_iff,decide_eq_false_iff_not]
  omega

/-- No digit is taken for a sign. -/
theorem ne_sign_of_isDigit {b : Byte} (h : isDigit b=true) : b≠45 ∧ b≠43 := by
  constructor <;> rintro rfl <;> exact absurd h (by decide)

/-- Every printed digit is a digit. -/
theorem isDigit_of_mem_decimal {n : ℕ} {b : Byte} (hb : b∈decimal n) : isDigit b=true := by
  unfold decimal at hb
  split at hb
  · obtain rfl := List.mem_singleton.mp hb
    decide
  · obtain ⟨d,hd,rfl⟩ := List.mem_map.mp hb
    exact isDigit_digitByte (Nat.digits_lt_base (by norm_num) (List.mem_reverse.mp hd))

/-- At least one digit is printed. -/
theorem decimal_ne_nil (n : ℕ) : decimal n≠[] := by
  unfold decimal
  split
  · exact List.cons_ne_nil _ _
  · next h =>
    rw [Ne,List.map_eq_nil_iff,List.reverse_eq_nil_iff]
    exact Nat.digits_ne_nil_iff_ne_zero.mpr h

/-- Reading the printed digits gives the number back. -/
theorem decimalValue_decimal (n : ℕ) : decimalValue (decimal n)=n := by
  unfold decimal
  split
  · next h =>
    subst h
    rfl
  · have hmap : ((Nat.digits 10 n).reverse.map digitByte).map digitValue=
        (Nat.digits 10 n).reverse := by
      rw [List.map_map]
      conv_rhs => rw [←List.map_id (Nat.digits 10 n).reverse]
      apply List.map_congr_left
      intro d hd
      exact digitValue_digitByte (Nat.digits_lt_base (by norm_num) (List.mem_reverse.mp hd))
    rw [decimalValue,hmap,horner_digits]

/-- A number below the power of the width has no more digits than the width. -/
theorem length_decimal_le {n k : ℕ} (hk : 0 < k) (h : n < 10^k) : (decimal n).length ≤ k := by
  unfold decimal
  split
  · exact hk
  · rw [List.length_map,List.length_reverse]
    exact (Nat.digits_length_le_iff (by norm_num) n).mpr h

/-- A number that reaches a power of ten has more digits than the power. -/
theorem lt_length_decimal {n k : ℕ} (h : 10^k ≤ n) : k < (decimal n).length := by
  have hpos : n≠0 := by
    have := Nat.pow_pos (show 0 < 10 by norm_num) (n:=k)
    omega
  rw [decimal,if_neg hpos,List.length_map,List.length_reverse]
  by_contra hle
  have := (Nat.digits_length_le_iff (b:=10) (by norm_num) n).mp (Nat.not_lt.mp hle)
  omega

/-- An `int` is printed with eleven characters at most. -/
theorem length_printInt_le {v : ℤ} (hmin : intMin ≤ v) (hmax : v ≤ intMax) :
    (printInt v).length ≤ 11 := by
  unfold intMin at hmin
  unfold intMax at hmax
  have hdigits : (decimal v.natAbs).length ≤ 10 := length_decimal_le (by norm_num) (by omega)
  unfold printInt
  split
  · rw [List.length_cons]
    omega
  · omega

/-- Leading zero characters do not change the value of a word. -/
theorem decimalValue_zeros_append (k : ℕ) (word : List Byte) :
    decimalValue (List.replicate k 48++word)=decimalValue word := by
  rw [decimalValue,List.map_append,List.map_replicate]
  exact horner_zeros_append k _

/-- A word of digits followed by something that is no digit, or by the end
of the field, is scanned as a whole. -/
theorem scanDigits_word {width : ℕ} {word rest : List Byte}
    (hword : ∀ b∈word,isDigit b=true) (hne : word≠[]) (hw : word.length ≤ width)
    (hrest : (rest.take (width-word.length)).takeWhile isDigit=[]) :
    scanDigits width (word++rest)=some (decimalValue word,rest) := by
  have htake : ((word++rest).take width).takeWhile isDigit=word := by
    rw [List.take_append,List.take_of_length_le hw,List.takeWhile_append_of_pos hword,hrest,
      List.append_nil]
  simp only [scanDigits,htake,if_neg hne,List.drop_left]

/-- A field that starts with a digit is scanned without a sign. -/
theorem scanInt_of_digit (libc : Libc) (width : ℕ) {field : List Byte} {b : Byte}
    (hb : field.head?=some b) (hd : isDigit b=true) (spaces : ℕ) :
    scanInt libc width (List.replicate spaces 32++field)=
      (scanDigits width field).map fun r => (storeInt libc r.1,r.2) := by
  have hskip : (List.replicate spaces (32 : Byte)++field).dropWhile isSpace=field := by
    rw [List.dropWhile_append_of_pos (by
      intro a ha
      rw [List.eq_of_mem_replicate ha]
      decide)]
    obtain ⟨rest,rfl⟩ := List.head?_eq_some_iff.mp hb
    exact List.dropWhile_cons_of_neg (by simp [isSpace_of_isDigit hd])
  have hsign := ne_sign_of_isDigit hd
  simp only [scanInt,hskip,hb,Option.some.injEq,if_neg hsign.1,if_neg hsign.2]

/-- A nonnegative `int` printed with zeros fills the field exactly and is
scanned back, whatever follows it. -/
theorem scanInt_printIntZeros (libc : Libc) {width : ℕ} (hw : 0 < width) {v : ℤ} (h0 : 0 ≤ v)
    (hv : v < 10^width) (hmax : v ≤ intMax) (rest : List Byte) :
    (printIntZeros width v).length=width ∧
      scanInt libc width (printIntZeros width v++rest)=some (v,rest) := by
  have hlt : v.natAbs < 10^width := by
    have hcast : ((v.natAbs : ℕ) : ℤ)=v := Int.natAbs_of_nonneg h0
    exact_mod_cast hcast.symm ▸ hv
  have hlen := length_decimal_le hw hlt
  have hprint : printIntZeros width v=
      List.replicate (width-(decimal v.natAbs).length) 48++decimal v.natAbs := by
    rw [printIntZeros]
    simp only [if_neg (Int.not_lt.mpr h0)]
  have hfull : (printIntZeros width v).length=width := by
    rw [hprint,List.length_append,List.length_replicate]
    omega
  have hdigits : ∀ b∈printIntZeros width v,isDigit b=true := by
    intro b hb
    rw [hprint] at hb
    rcases List.mem_append.mp hb with hz|hd
    · rw [List.eq_of_mem_replicate hz]
      decide
    · exact isDigit_of_mem_decimal hd
  have hne : printIntZeros width v≠[] := by
    intro he
    rw [he,List.length_nil] at hfull
    omega
  obtain ⟨b,tail,hcons⟩ := List.exists_cons_of_ne_nil hne
  have hhead : (printIntZeros width v++rest).head?=some b := by
    rw [hcons]
    rfl
  have hb : isDigit b=true := hdigits b (by rw [hcons]; exact List.mem_cons_self)
  have hscan := scanInt_of_digit libc width hhead hb 0
  have hword : scanDigits width (printIntZeros width v++rest)=
      some (decimalValue (printIntZeros width v),rest) :=
    scanDigits_word hdigits hne hfull.le (by
      rw [hfull,Nat.sub_self,List.take_zero]
      rfl)
  refine ⟨hfull,?_⟩
  rw [List.replicate_zero,List.nil_append] at hscan
  rw [hscan,hword]
  have hvalue : (decimalValue (printIntZeros width v) : ℤ)=v := by
    rw [hprint,decimalValue_zeros_append,decimalValue_decimal]
    exact Int.natAbs_of_nonneg h0
  have hmin : intMin ≤ v := by
    unfold intMin
    omega
  simp only [Option.map_some,hvalue,storeInt,if_pos (And.intro hmin hmax)]

/-- An `int` printed in front of something that is no digit is scanned back,
and nothing more. -/
theorem scanInt_printInt (libc : Libc) {v : ℤ} (hv : IsInt v) {width : ℕ}
    (hw : (printInt v).length ≤ width) {rest : List Byte}
    (hrest : ∀ b,rest.head?=some b → isDigit b=false) :
    scanInt libc width (printInt v++rest)=some (v,rest) := by
  have hdigits : ∀ b∈decimal v.natAbs,isDigit b=true := fun _ hb => isDigit_of_mem_decimal hb
  have hne := decimal_ne_nil v.natAbs
  have hstop : ∀ k,(rest.take k).takeWhile isDigit=[] := by
    intro k
    cases rest with
    | nil => rw [List.take_nil,List.takeWhile_nil]
    | cons b rest =>
      have hb := hrest b rfl
      cases k with
      | zero => rfl
      | succ k => rw [List.take_succ_cons,List.takeWhile_cons_of_neg (by simp [hb])]
  unfold printInt at hw ⊢
  split at hw
  · next hneg =>
    rw [List.length_cons] at hw
    have hfits : (decimal v.natAbs).length ≤ width-1 := by omega
    have hword := scanDigits_word hdigits hne hfits (hstop _)
    have hskip : ((45 : Byte)::(decimal v.natAbs++rest)).dropWhile isSpace=
        45::(decimal v.natAbs++rest) := List.dropWhile_cons_of_neg (by decide)
    have habs : (v.natAbs : ℤ)=-v := by omega
    rw [if_pos hneg,List.cons_append,scanInt]
    simp only [hskip,List.head?_cons,if_true,List.tail_cons,hword,Option.map_some,
      decimalValue_decimal,habs,Int.neg_neg,storeInt_of_int libc hv]
  · next hneg =>
    have hword := scanDigits_word hdigits hne hw (hstop _)
    obtain ⟨b,tail,hcons⟩ := List.exists_cons_of_ne_nil hne
    have hb : isDigit b=true := hdigits b (by rw [hcons]; exact List.mem_cons_self)
    have hhead : (decimal v.natAbs++rest).head?=some b := by
      rw [hcons]
      rfl
    have hscan := scanInt_of_digit libc width hhead hb 0
    have habs : (v.natAbs : ℤ)=v := by omega
    rw [List.replicate_zero,List.nil_append] at hscan
    rw [if_neg hneg,hscan,hword,Option.map_some,decimalValue_decimal,habs,storeInt_of_int libc hv]

/-- Two numbers with the same digits are the same. -/
theorem decimal_injective : Function.Injective decimal :=
  Function.LeftInverse.injective decimalValue_decimal

/-- What `%d` prints is digits, or a minus and digits. -/
theorem mem_printInt {v : ℤ} {b : Byte} (hb : b∈printInt v) : b=45 ∨ isDigit b=true := by
  unfold printInt at hb
  split at hb
  · rcases List.mem_cons.mp hb with h|h
    · exact Or.inl h
    · exact Or.inr (isDigit_of_mem_decimal h)
  · exact Or.inr (isDigit_of_mem_decimal hb)

/-- `%d` prints different numbers differently. -/
theorem printInt_injective : Function.Injective printInt := by
  have hminus : ∀ n,(45 : Byte)∉decimal n :=
    fun n hmem => (ne_sign_of_isDigit (isDigit_of_mem_decimal hmem)).1 rfl
  intro v w h
  unfold printInt at h
  split at h <;> split at h
  · have habs := decimal_injective (List.tail_eq_of_cons_eq h)
    omega
  · exact absurd (h ▸ List.mem_cons_self) (hminus _)
  · exact absurd (h.symm ▸ List.mem_cons_self) (hminus _)
  · have habs := decimal_injective h
    omega

/-- A word without the separator ends at the first one. -/
theorem append_separator_injective {α : Type*} {separator : α} {word word' rest rest' : List α}
    (hword : separator∉word) (hword' : separator∉word')
    (h : word++separator::rest=word'++separator::rest') : word=word' ∧ rest=rest' := by
  induction word generalizing word' with
  | nil =>
    cases word' with
    | nil => exact ⟨rfl,List.tail_eq_of_cons_eq h⟩
    | cons b tail' =>
      obtain rfl : separator=b := List.head_eq_of_cons_eq h
      exact absurd List.mem_cons_self hword'
  | cons b tail ih =>
    cases word' with
    | nil =>
      obtain rfl : b=separator := List.head_eq_of_cons_eq h
      exact absurd List.mem_cons_self hword
    | cons b' tail' =>
      obtain rfl : b=b' := List.head_eq_of_cons_eq h
      obtain ⟨htail,hrest⟩ := ih (fun hm => hword (List.mem_cons_of_mem _ hm))
        (fun hm => hword' (List.mem_cons_of_mem _ hm)) (List.tail_eq_of_cons_eq h)
      exact ⟨by rw [htail],hrest⟩

/-- And it begins behind the last one. -/
theorem separator_append_injective {α : Type*} {separator : α} {front front' word word' : List α}
    (hword : separator∉word) (hword' : separator∉word')
    (h : front++separator::word=front'++separator::word') : front=front' ∧ word=word' := by
  have hreversed : word.reverse++separator::front.reverse=
      word'.reverse++separator::front'.reverse := by
    simpa using congrArg List.reverse h
  obtain ⟨hw,hf⟩ := append_separator_injective (by simpa using hword) (by simpa using hword')
    hreversed
  exact ⟨List.reverse_injective hf,List.reverse_injective hw⟩

end NetworkLayer.FormattedText

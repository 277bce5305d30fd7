import NetworkLayer.IpPackets

/-!
# Fixed-width decimals with checked arithmetic

`int_to_str` once more with every operation of its `long long` arithmetic
checked: a zero divisor or a result outside the range stops it. No width
whose power fits and no number stop it, so it stores what the unchecked
printer stores. Printer and parser are inverse to each other at every width.
-/

namespace NetworkLayer.FixedWidthNumbers

open ByteStrings DecimalWords FormattedText IpPackets

/-- Least value of `long long`. -/
def longMin : ℤ := -9223372036854775808

/-- Greatest value of `long long`. -/
def longMax : ℤ := 9223372036854775807

/-- A result that a `long long` can hold. -/
def inLong (v : ℤ) : Option ℤ := if longMin ≤ v ∧ v ≤ longMax then some v else none

/-- A division, undefined for a zero divisor. -/
def divLong (a b : ℤ) : Option ℤ := if b=0 then none else inLong (a.tdiv b)

/-- A remainder, defined where the division is. -/
def modLong (a b : ℤ) : Option ℤ := (divLong a b).map fun _ => a.tmod b

/-- `power` with checked products. -/
def powerChecked (base : ℤ) : ℕ → Option ℤ
  | 0 => some 1
  | exponent+1 => (powerChecked base exponent).bind fun result => inLong (result*base)

/-- The loop of `int_to_str` with checked operations. -/
def intToStrLoopChecked : ℕ → ℤ → ℤ → Option (List Byte)
  | 0,_,_ => some []
  | rounds+1,help,n => do
    let tmp ← modLong n help
    let help ← divLong help 10
    let digit ← divLong tmp help
    let character ← inLong (digit+48)
    let rest ← intToStrLoopChecked rounds help n
    return UInt8.ofInt character::rest

/-- `int_to_str` with checked operations. -/
def intToStrChecked (sizeOfStr : ℕ) (n : ℤ) : Option (List Byte) := do
  let help ← powerChecked 10 sizeOfStr
  intToStrLoopChecked sizeOfStr help n

/-- Small absolute values are in range. -/
theorem inLong_of_natAbs {v : ℤ} (h : v.natAbs ≤ 9223372036854775807) : inLong v=some v := by
  have hrange : longMin ≤ v ∧ v ≤ longMax := by
    unfold longMin longMax
    omega
  rw [inLong,if_pos hrange]

/-- A division by another number than zero is the exact one when that is in
range. -/
theorem divLong_of_natAbs {a b : ℤ} (hb : b≠0)
    (h : a.natAbs/b.natAbs ≤ 9223372036854775807) : divLong a b=some (a.tdiv b) := by
  rw [divLong,if_neg hb,inLong_of_natAbs (by rwa [Int.natAbs_tdiv])]

/-- Powers of ten keep growing, so a fitting one is reached through fitting
ones. -/
theorem pow_le_longMax {j k : ℕ} (hjk : j ≤ k) (hk : (10 : ℤ)^k ≤ longMax) :
    10^j ≤ 9223372036854775807 := by
  have hle : 10^j ≤ 10^k := Nat.pow_le_pow_right (by norm_num) hjk
  have hmax : ((10^k : ℕ) : ℤ) ≤ 9223372036854775807 := by
    push_cast
    exact hk
  omega

/-- The absolute value of a power of ten. -/
theorem natAbs_ten_pow (k : ℕ) : ((10 : ℤ)^k).natAbs=10^k := by
  rw [Int.natAbs_pow]
  rfl

/-- No product of `power` overflows when the power fits. -/
theorem powerChecked_ten {k : ℕ} (hk : (10 : ℤ)^k ≤ longMax) : powerChecked 10 k=some (10^k) := by
  have hstep : ∀ j ≤ k,powerChecked 10 j=some (10^j) := by
    intro j
    induction j with
    | zero => intro _; rfl
    | succ j ih =>
      intro hj
      have hfits := pow_le_longMax hj hk
      have habs := natAbs_ten_pow (j+1)
      rw [powerChecked,ih (by omega),Option.bind_some,←pow_succ,inLong_of_natAbs (by omega)]
  exact hstep k le_rfl

/-- The digit a round stores is the digit of the number's absolute value. -/
theorem natAbs_digit (n : ℤ) (j : ℕ) :
    ((n.tmod (10^(j+1))).tdiv (10^j)).natAbs=n.natAbs/10^j%10 := by
  have hquotient := Int.natAbs_tdiv (n.tmod (10^(j+1))) (10^j)
  rw [Int.natAbs_tmod,natAbs_ten_pow,natAbs_ten_pow,pow_succ] at hquotient
  exact hquotient.trans (Nat.mod_mul_right_div_self _ _ _)

/-- No round divides by zero or leaves the range, whatever the number. -/
theorem intToStrLoopChecked_eq {n : ℤ} (hn : longMin ≤ n ∧ n ≤ longMax) {j : ℕ}
    (hj : (10 : ℤ)^j ≤ longMax) :
    intToStrLoopChecked j (10^j) n=some (intToStrLoop j (10^j) n) := by
  induction j with
  | zero => rfl
  | succ j ih =>
    have hpow : (10 : ℤ)^(j+1)≠0 := pow_ne_zero _ (by norm_num)
    have hbelow : (10 : ℤ)^j≠0 := pow_ne_zero _ (by norm_num)
    have hfits := pow_le_longMax le_rfl hj
    have hfewer := pow_le_longMax (Nat.le_succ j) hj
    have habs := natAbs_ten_pow (j+1)
    have hten : 10 ≤ 10^(j+1) := Nat.le_self_pow (Nat.succ_ne_zero j) 10
    have hquotient : n.natAbs/((10 : ℤ)^(j+1)).natAbs ≤ 9223372036854775807 := by
      have hle : n.natAbs/10^(j+1) ≤ n.natAbs/10 := Nat.div_le_div_left hten (by norm_num)
      unfold longMin longMax at hn
      rw [habs]
      omega
    have hhelp : ((10 : ℤ)^(j+1)).tdiv 10=10^j := by
      rw [pow_succ,Int.mul_tdiv_cancel _ (by norm_num)]
    have hlower : divLong ((10 : ℤ)^(j+1)) 10=some (10^j) := by
      rw [divLong_of_natAbs (by norm_num) (by rw [habs]; exact (Nat.div_le_self _ _).trans hfits),
        hhelp]
    -- the stored digit is below ten in absolute value, for negative numbers too
    have hdigit := natAbs_digit n j
    have hsmall : n.natAbs/10^j%10 < 10 := Nat.mod_lt _ (by norm_num)
    have hdivide : divLong (n.tmod (10^(j+1))) (10^j)=
        some ((n.tmod (10^(j+1))).tdiv (10^j)) := by
      refine divLong_of_natAbs hbelow ?_
      have hquotient := Int.natAbs_tdiv (n.tmod (10^(j+1))) (10^j)
      exact hquotient.symm.le.trans (by omega)
    have hcharacter := inLong_of_natAbs (v:=(n.tmod (10^(j+1))).tdiv (10^j)+48) (by omega)
    have hrest := ih (by unfold longMax; exact_mod_cast hfewer)
    rw [intToStrLoopChecked,modLong,divLong_of_natAbs hpow hquotient]
    simp only [Option.map_some,Option.bind_eq_bind,Option.bind_some,hlower,hdivide,hcharacter,hrest,
      intToStrLoop,hhelp]
    rfl

/-- `int_to_str` stops for no width whose power fits and for no number. -/
theorem intToStrChecked_eq {k : ℕ} (hk : (10 : ℤ)^k ≤ longMax) {n : ℤ}
    (hn : longMin ≤ n ∧ n ≤ longMax) : intToStrChecked k n=some (intToStr k n) := by
  rw [intToStrChecked,powerChecked_ten hk]
  simp only [Option.bind_eq_bind,Option.bind_some,intToStr,power_eq]
  exact intToStrLoopChecked_eq hn hk

/-- `str_to_int` of a word of digits is its value, when that is an `int`. -/
theorem strToInt_word {word : List Byte} (hdigits : ∀ b∈word,isDigit b=true)
    (hmax : (decimalValue word : ℤ) ≤ intMax) : strToInt word=decimalValue word := by
  have hsmall : ∀ d∈word.map digitValue,d < 10 := by
    intro d hd
    obtain ⟨b,hb,rfl⟩ := List.mem_map.mp hd
    exact digitValue_lt (hdigits b hb)
  have hfold := strToInt_digits hsmall hmax
  rwa [map_digitByte_digitValue hdigits] at hfold

/-- A word of digits survives folding and storing at its own width. -/
theorem intToStr_decimalValue {word : List Byte} (hdigits : ∀ b∈word,isDigit b=true) :
    intToStr word.length (decimalValue word)=word := by
  have hsmall : ∀ d∈word.map digitValue,d < 10 := by
    intro d hd
    obtain ⟨b,hb,rfl⟩ := List.mem_map.mp hd
    exact digitValue_lt (hdigits b hb)
  have hword := fixedDigits_horner hsmall
  rw [List.length_map] at hword
  rw [intToStr_eq,decimalValue,hword,map_digitByte_digitValue hdigits]

/-- All characters are digits, or all are `0` or up to nine places below it. -/
def OneSigned (word : List Byte) : Prop :=
  (∀ b∈word,isDigit b=true) ∨ ∀ b∈word,39 ≤ b.toNat ∧ b.toNat ≤ 48

/-- Characters below `0` survive folding and storing as digits do. -/
theorem intToStr_strToInt_below {word : List Byte} (hwidth : (10 : ℤ)^word.length ≤ intMax)
    (h : ∀ b∈word,39 ≤ b.toNat ∧ b.toNat ≤ 48) : intToStr word.length (strToInt word)=word := by
  let digits := word.map fun b => 48-b.toNat
  have hsmall : ∀ d∈digits,d < 10 := by
    intro d hd
    obtain ⟨b,hb,rfl⟩ := List.mem_map.mp hd
    have hrange := h b hb
    omega
  have hword : digits.map (signedDigitByte (-1))=word := by
    rw [List.map_map]
    refine (List.map_congr_left fun b hb => ?_).trans (List.map_id word)
    have hrange := h b hb
    have hvalue : (-1)*((48-b.toNat : ℕ) : ℤ)+48=b.toNat := by omega
    have hbyte : UInt8.ofInt (b.toNat : ℤ)=b := by
      have hlt := b.toNat_lt
      apply UInt8.toNat_inj.mp
      rw [UInt8.ofInt,UInt8.toNat_ofNat']
      omega
    rw [Function.comp_apply,signedDigitByte,hvalue,id_eq,hbyte]
  have hlen : digits.length=word.length := List.length_map _
  have hfits : (horner 10 digits : ℤ) ≤ intMax := by
    have hlt := horner_lt hsmall
    rw [hlen] at hlt
    have hcast : (horner 10 digits : ℤ) < 10^word.length := by exact_mod_cast hlt
    omega
  have hfold := strToInt_signed (.inr rfl) hsmall hfits
  have hstore := intToStr_neg word.length (horner 10 digits)
  have hdigits := fixedDigits_horner hsmall
  rw [hlen] at hdigits
  rw [hword,neg_one_mul] at hfold
  rw [hfold,hstore,hdigits,hword]

/-- No other word of a width whose power is an `int` survives. -/
theorem intToStr_strToInt_iff {word : List Byte} (hwidth : (10 : ℤ)^word.length ≤ intMax) :
    intToStr word.length (strToInt word)=word ↔ OneSigned word := by
  constructor
  · intro h
    rcases Int.eq_nat_or_neg (strToInt word) with ⟨n,hn|hn⟩
    · left
      intro b hb
      rw [←h,hn] at hb
      exact isDigit_of_mem_intToStr hb
    · right
      intro b hb
      rw [←h,hn,intToStr_neg] at hb
      obtain ⟨d,hd,rfl⟩ := List.mem_map.mp hb
      have hlt : d < 10 := fixedDigits_lt (by norm_num) hd
      rw [signedDigitByte,UInt8.ofInt,UInt8.toNat_ofNat']
      omega
  · rintro (hdigits|hbelow)
    · have hlt : decimalValue word < 10^word.length := by
        have hsmall : ∀ d∈word.map digitValue,d < 10 := by
          intro d hd
          obtain ⟨b,hb,rfl⟩ := List.mem_map.mp hd
          exact digitValue_lt (hdigits b hb)
        have hvalue := horner_lt hsmall
        rwa [List.length_map] at hvalue
      have hcast : (decimalValue word : ℤ) < 10^word.length := by exact_mod_cast hlt
      rw [strToInt_word hdigits (by omega),intToStr_decimalValue hdigits]
    · exact intToStr_strToInt_below hwidth hbelow

/-- At every width whose power fits, `int_to_str` stores that many digits of a
number below the power and `str_to_int` folds them back to it; a word of that
many digits with the value of an `int` comes back from `str_to_int` and
`int_to_str`; and no operation of `int_to_str` divides by zero or overflows,
whatever the number. -/
theorem fixed_width_round_trip {k : ℕ} (hk : (10 : ℤ)^k ≤ longMax) :
    (∀ n : ℕ,n < 10^k → n < 2^31 →
      ((intToStr k n).length=k ∧ (∀ b∈intToStr k n,isDigit b=true) ∧
        decimalValue (intToStr k n)=n) ∧ strToInt (intToStr k n)=n) ∧
    (∀ word : List Byte,word.length=k → (∀ b∈word,isDigit b=true) → decimalValue word < 2^31 →
      intToStr k (strToInt word)=word) ∧
    ∀ n : ℤ,longMin ≤ n ∧ n ≤ longMax → intToStrChecked k n=some (intToStr k n) := by
  refine ⟨?_,?_,fun n hn => intToStrChecked_eq hk hn⟩
  · intro n hlt hint
    have hmax : (n : ℤ) ≤ intMax := by
      unfold intMax
      omega
    exact ⟨⟨length_intToStr k n,fun b hb => isDigit_of_mem_intToStr hb,
      decimalValue_intToStr hlt⟩,strToInt_intToStr hlt hmax⟩
  · rintro word rfl hdigits hint
    have hmax : (decimalValue word : ℤ) ≤ intMax := by
      unfold intMax
      omega
    rw [strToInt_word hdigits hmax,intToStr_decimalValue hdigits]

/-- The ten digits of a total length. -/
theorem fixed_width_round_trip_ten :
    (10 : ℤ)^10 ≤ longMax ∧ strToInt (intToStr 10 (2147483647 : ℕ))=2147483647 :=
  ⟨by decide,((fixed_width_round_trip (k:=10) (by decide)).1 2147483647 (by norm_num)
    (by norm_num)).2⟩

end NetworkLayer.FixedWidthNumbers

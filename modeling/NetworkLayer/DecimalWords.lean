import Mathlib.Data.Nat.Digits.Lemmas

/-!
# Positional words

Digit lists with the most significant digit first, in any base. `horner`
folds a word to its value from the left, `fixedDigits` peels a number off
from the most significant end at a given width. The two are inverse to each
other on numbers below the power of the width and on words of digits.
-/

namespace NetworkLayer.DecimalWords

variable {b : ℕ}

/-- The value of a word, folded from the most significant digit. -/
def horner (b : ℕ) (digits : List ℕ) : ℕ := digits.foldl (fun v d => b*v+d) 0

/-- The `k` lowest digits of a number, most significant first. -/
def fixedDigits (b : ℕ) : ℕ → ℕ → List ℕ
  | 0,_ => []
  | k+1,n => n/b^k%b::fixedDigits b k n

/-- Folding from any start shifts the start by the width of the word. -/
theorem foldl_horner (digits : List ℕ) (v : ℕ) :
    digits.foldl (fun v d => b*v+d) v=v*b^digits.length+horner b digits := by
  induction digits generalizing v with
  | nil => simp [horner]
  | cons d digits ih =>
    rw [horner,List.foldl_cons,List.foldl_cons,ih,ih (b*0+d),List.length_cons,pow_succ]
    ring

/-- The first digit counts as much as the rest of the word is wide. -/
theorem horner_cons (d : ℕ) (digits : List ℕ) :
    horner b (d::digits)=d*b^digits.length+horner b digits := by
  rw [horner,List.foldl_cons,foldl_horner,Nat.mul_zero,Nat.zero_add]

/-- Joined words add up after shifting the first. -/
theorem horner_append (first second : List ℕ) :
    horner b (first++second)=horner b first*b^second.length+horner b second := by
  rw [horner,List.foldl_append,foldl_horner,←horner]

/-- Leading zeros do not count. -/
theorem horner_zeros_append (k : ℕ) (digits : List ℕ) :
    horner b (List.replicate k 0++digits)=horner b digits := by
  induction k with
  | zero => rfl
  | succ k ih => rw [List.replicate_succ,List.cons_append,horner_cons,ih,Nat.zero_mul,Nat.zero_add]

/-- The usual digits, most significant first, fold back to the number. -/
theorem horner_digits (b n : ℕ) : horner b (Nat.digits b n).reverse=n := by
  rw [horner,List.foldl_reverse]
  have h := Nat.ofDigits_digits b n
  rw [Nat.ofDigits_eq_foldr] at h
  simpa only [Nat.cast_id,Nat.add_comm] using h

@[simp] theorem length_fixedDigits (b k n : ℕ) : (fixedDigits b k n).length=k := by
  induction k with
  | zero => rfl
  | succ k ih => rw [fixedDigits,List.length_cons,ih]

/-- Every peeled digit is below the base. -/
theorem fixedDigits_lt (hb : 0 < b) {k n d : ℕ} (hd : d∈fixedDigits b k n) : d < b := by
  induction k with
  | zero => simp only [fixedDigits,List.not_mem_nil] at hd
  | succ k ih =>
    rcases List.mem_cons.mp hd with rfl|hmem
    · exact Nat.mod_lt _ hb
    · exact ih hmem

/-- The peeled digits fold back to the number modulo the power of the width. -/
theorem horner_fixedDigits (b k n : ℕ) : horner b (fixedDigits b k n)=n%b^k := by
  induction k with
  | zero => rw [fixedDigits,pow_zero,Nat.mod_one]; rfl
  | succ k ih =>
    rw [fixedDigits,horner_cons,length_fixedDigits,ih,pow_succ,Nat.mod_mul,
      Nat.mul_comm (b^k),Nat.add_comm]

/-- A number below the power of the width survives printing and reading. -/
theorem horner_fixedDigits_of_lt {k n : ℕ} (h : n < b^k) : horner b (fixedDigits b k n)=n := by
  rw [horner_fixedDigits,Nat.mod_eq_of_lt h]

/-- The value of a word of digits is below the power of its width. -/
theorem horner_lt {digits : List ℕ} (h : ∀ d∈digits,d < b) :
    horner b digits < b^digits.length := by
  induction digits with
  | nil => exact Nat.one_pos
  | cons d digits ih =>
    have hd := h d List.mem_cons_self
    have hrest := ih fun e he => h e (List.mem_cons_of_mem _ he)
    calc horner b (d::digits)=d*b^digits.length+horner b digits := horner_cons d digits
      _ < d*b^digits.length+b^digits.length := by omega
      _ = (d+1)*b^digits.length := by ring
      _ ≤ b*b^digits.length := Nat.mul_le_mul_right _ hd
      _ = b^(d::digits).length := by rw [List.length_cons,pow_succ,Nat.mul_comm]

/-- What counts more than the width does not show in the peeled digits. -/
theorem fixedDigits_mul_add (hb : 0 < b) (k c n : ℕ) :
    fixedDigits b k (c*b^k+n)=fixedDigits b k n := by
  induction k generalizing c with
  | zero => rfl
  | succ k ih =>
    have hsplit : c*b^(k+1)+n=c*b*b^k+n := by ring
    have hdigit : (c*b*b^k+n)/b^k%b=n/b^k%b := by
      rw [Nat.add_comm,Nat.add_mul_div_right _ _ (Nat.pow_pos hb),Nat.add_mul_mod_self_right]
    rw [fixedDigits,fixedDigits,hsplit,hdigit,ih]

/-- A word of digits survives reading and printing at its own width. -/
theorem fixedDigits_horner {digits : List ℕ} (h : ∀ d∈digits,d < b) :
    fixedDigits b digits.length (horner b digits)=digits := by
  induction digits with
  | nil => rfl
  | cons d digits ih =>
    have hd := h d List.mem_cons_self
    have hrest : ∀ e∈digits,e < b := fun e he => h e (List.mem_cons_of_mem _ he)
    have hb : 0 < b := (Nat.zero_le d).trans_lt hd
    have hlow := Nat.div_eq_of_lt (horner_lt hrest)
    have hfirst : (d*b^digits.length+horner b digits)/b^digits.length%b=d := by
      rw [Nat.add_comm,Nat.add_mul_div_right _ _ (Nat.pow_pos hb),hlow,Nat.zero_add,
        Nat.mod_eq_of_lt hd]
    rw [horner_cons,List.length_cons,fixedDigits,hfirst,fixedDigits_mul_add hb,ih hrest]

end NetworkLayer.DecimalWords

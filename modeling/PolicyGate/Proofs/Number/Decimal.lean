import Mathlib.Tactic.Common
import PolicyGate.Json.Read
import PolicyGate.Json.Text
import PolicyGate.Number.Int64Text

/-!
Whole numbers in decimal. Main statement: a whole number that is written in decimal is read back
exactly if it fits 64 bits (`parse_renderInt`), and the texts that are read are the spellings of the
numbers of 64 bits, also those that are never written (`parse_eq_ok_iff`).
-/

namespace PolicyGate

theorem isDigit_of_mem_toDigits {n : Nat} {c : Char} (h : c ∈ Nat.toDigits 10 n) :
    c.isDigit = true :=
  Nat.isDigit_of_mem_toDigits (by omega) (by omega) h

/-- A number above zero does not start with a zero. -/
theorem head?_toDigits_ne_zero {n : Nat} (h : 0 < n) :
    (Nat.toDigits 10 n).head? ≠ some '0' := by
  induction n using Nat.strongRecOn with
  | ind n ih =>
    rw [Nat.toDigits_eq_if (by omega)]
    split
    · next hlt =>
      have : n.digitChar ≠ '0' := by
        intro he
        have := congrArg Char.toNat he
        rw [Nat.toNat_digitChar_of_lt_ten hlt] at this
        simp at this
        omega
      simpa using this
    · next hge =>
      have hih := ih (n / 10) (by omega) (by omega)
      cases hd : Nat.toDigits 10 (n / 10) with
      | nil => exact absurd hd Nat.toDigits_ne_nil
      | cons d rest => simpa [hd] using hih

/-- The number that some digits spell behind a number. -/
def Json.digitsFrom (n : Nat) (digits : List Char) : Nat :=
  digits.foldl (fun n d => n * 10 + (d.toNat - 48)) n

theorem Json.digitsFrom_toDigits (n : Nat) : digitsFrom 0 (Nat.toDigits 10 n) = n := by
  have h := Nat.ofDigitChars_ten_toDigits (n := n)
  rw [Nat.ofDigitChars_eq_foldl] at h
  simpa [digitsFrom, Nat.mul_comm] using h

theorem Json.le_digitsFrom (n : Nat) (digits : List Char) : n ≤ digitsFrom n digits := by
  induction digits generalizing n with
  | nil => exact Nat.le_refl n
  | cons d rest ih =>
    have := ih (n * 10 + (d.toNat - 48))
    unfold digitsFrom at *
    rw [List.foldl_cons]
    omega

theorem Json.digitsFrom_zero (digits : List Char) :
    digitsFrom 0 digits = Nat.ofDigitChars 10 digits 0 := by
  simp [digitsFrom, Nat.ofDigitChars_eq_foldl, Nat.mul_comm]

namespace Int64Text

open Json

/-- Reading digits gives their number if it stays within the limit, and else the overflow. -/
theorem readDigits_eq {limit n : Nat} {overflow : Refusal} {digits : List Char}
    (h : ∀ d ∈ digits, d.isDigit = true) (hn : n ≤ limit) :
    readDigits limit overflow n digits =
      if digitsFrom n digits ≤ limit then .ok (digitsFrom n digits) else .error overflow := by
  induction digits generalizing n with
  | nil => simp [readDigits, digitsFrom, hn]
  | cons d rest ih =>
    have hd : d.isDigit = true := h d List.mem_cons_self
    have hfrom : digitsFrom n (d :: rest) = digitsFrom (n * 10 + (d.toNat - 48)) rest := rfl
    simp only [readDigits, hd, not_true_eq_false, if_false, hfrom]
    split
    · next hlt =>
      have := le_digitsFrom (n * 10 + (d.toNat - 48)) rest
      rw [if_neg (by omega)]
    · next hge => exact ih (fun c hc => h c (List.mem_cons_of_mem _ hc)) (by omega)

theorem readDigits_toDigits (limit n : Nat) (overflow : Refusal) :
    readDigits limit overflow 0 (Nat.toDigits 10 n) =
      if n ≤ limit then .ok n else .error overflow := by
  rw [readDigits_eq (fun _ => isDigit_of_mem_toDigits) (Nat.zero_le _), digitsFrom_toDigits]

/-- A rendered whole number is read as itself if it has 64 bits. -/
theorem parse_renderInt (n : Int) :
    parse (String.ofList (renderInt n)) =
      if n < -9223372036854775808 then .error .tooSmall
      else if 9223372036854775807 < n then .error .tooLarge
      else .ok n := by
  have hread := fun limit overflow => readDigits_toDigits limit n.natAbs overflow
  unfold parse renderInt
  rw [String.toList_ofList]
  cases hd : Nat.toDigits 10 n.natAbs with
  | nil => exact absurd hd Nat.toDigits_ne_nil
  | cons d rest =>
    rw [hd] at hread
    by_cases hneg : n < 0
    · simp only [hneg, if_true, List.cons_append, List.nil_append, hread]
      have hhigh : ¬ 9223372036854775807 < n := by omega
      by_cases hle : n.natAbs ≤ 9223372036854775808
      · have hlow : ¬ n < -9223372036854775808 := by omega
        have habs : -(n.natAbs : Int) = n := by omega
        rw [if_pos hle, if_neg hlow, if_neg hhigh]
        exact congrArg _ habs
      · have hlow : n < -9223372036854775808 := by omega
        rw [if_neg hle, if_pos hlow]
        rfl
    · have hdigit : d.isDigit = true := isDigit_of_mem_toDigits (hd ▸ List.mem_cons_self)
      simp only [hneg, if_false, List.nil_append]
      split
      · next he => cases he
      · next he => cases he; cases hdigit
      · next he => cases he; cases hdigit
      · next he => cases he; cases hdigit
      · next he => cases he; cases hdigit
      · have habs : (n.natAbs : Int) = n := by omega
        have hlow : ¬ n < -9223372036854775808 := by omega
        rw [hread, if_neg hlow]
        by_cases hle : n.natAbs ≤ 9223372036854775807
        · have hhigh : ¬ 9223372036854775807 < n := by omega
          rw [if_pos hle, if_neg hhigh]
          exact congrArg _ habs
        · have hhigh : 9223372036854775807 < n := by omega
          rw [if_neg hle, if_pos hhigh]
          rfl

/-! ## Spellings -/

variable {limit m : Nat} {n : Int} {overflow : Refusal} {digits : List Char} {text : String}

theorem isDigit_of_readDigits {n : Nat} (h : readDigits limit overflow n digits = .ok m) :
    ∀ d ∈ digits, d.isDigit = true := by
  induction digits generalizing n with
  | nil => exact fun _ hd => nomatch hd
  | cons c rest ih =>
    simp only [readDigits] at h
    split at h
    · cases h
    · next hc =>
      split at h
      · cases h
      · exact List.forall_mem_cons.2 ⟨by simpa using hc, ih h⟩

/-- Digits, at least one, that stand for a magnitude. -/
structure Magnitude (digits : List Char) (n : Nat) : Prop where
  ne_nil : digits ≠ []
  isDigit : ∀ d ∈ digits, d.isDigit = true
  value : Nat.ofDigitChars 10 digits 0 = n

/-- What is read without failure is the magnitude of the digits. -/
theorem readDigits_eq_ok_iff (h : digits ≠ []) :
    readDigits limit overflow 0 digits = .ok m ↔ Magnitude digits m ∧ m ≤ limit := by
  constructor
  · intro hr
    have hd := isDigit_of_readDigits hr
    rw [readDigits_eq hd (Nat.zero_le _), digitsFrom_zero] at hr
    split at hr
    · next hle =>
      cases hr
      exact ⟨⟨h, hd, rfl⟩, hle⟩
    · cases hr
  · rintro ⟨⟨-, hd, rfl⟩, hle⟩
    rw [readDigits_eq hd (Nat.zero_le _), digitsFrom_zero, if_pos hle]

/-- At most one sign and digits behind it spell a number of 64 bits. -/
inductive Spells (text : String) : Int → Prop where
  | plain {n : Nat} (h : Magnitude text.toList n) (hn : n ≤ 9223372036854775807) : Spells text n
  | plus {digits : List Char} {n : Nat} (htext : text.toList = '+' :: digits)
      (h : Magnitude digits n) (hn : n ≤ 9223372036854775807) : Spells text n
  | minus {digits : List Char} {n : Nat} (htext : text.toList = '-' :: digits)
      (h : Magnitude digits n) (hn : n ≤ 9223372036854775808) : Spells text (-n)

theorem Spells.bounds (h : Spells text n) :
    -9223372036854775808 ≤ n ∧ n ≤ 9223372036854775807 := by
  cases h <;> omega

theorem map_readDigits_eq_ok_iff (h : digits ≠ []) {f : Nat → Int} :
    (readDigits limit overflow 0 digits).map f = .ok n ↔
      ∃ m, Magnitude digits m ∧ m ≤ limit ∧ f m = n := by
  constructor
  · intro hr
    cases hm : readDigits limit overflow 0 digits with
    | error refusal => rw [hm] at hr; cases hr
    | ok m =>
      rw [hm] at hr
      obtain ⟨hmag, hle⟩ := (readDigits_eq_ok_iff h).1 hm
      exact ⟨m, hmag, hle, Except.ok.inj hr⟩
  · rintro ⟨m, hmag, hle, rfl⟩
    rw [(readDigits_eq_ok_iff h).2 ⟨hmag, hle⟩]
    rfl

theorem parse_plus (htext : text.toList = '+' :: digits) (h : digits ≠ []) :
    parse text = (readDigits 9223372036854775807 .tooLarge 0 digits).map Int.ofNat := by
  cases digits with
  | nil => exact absurd rfl h
  | cons c rest => simp only [parse, htext]

theorem parse_minus (htext : text.toList = '-' :: digits) (h : digits ≠ []) :
    parse text =
      (readDigits 9223372036854775808 .tooSmall 0 digits).map fun (m : Nat) => -(m : Int) := by
  cases digits with
  | nil => exact absurd rfl h
  | cons c rest =>
    simp only [parse, htext]
    cases readDigits 9223372036854775808 .tooSmall 0 (c :: rest) <;> rfl

theorem parse_plain {c : Char} {rest : List Char} (htext : text.toList = c :: rest)
    (hplus : c ≠ '+') (hminus : c ≠ '-') :
    parse text = (readDigits 9223372036854775807 .tooLarge 0 (c :: rest)).map Int.ofNat := by
  simp [parse, htext, hplus, hminus]

/-- What is read are the spellings of the numbers of 64 bits. -/
theorem parse_eq_ok_iff : parse text = .ok n ↔ Spells text n := by
  constructor
  · intro h
    cases htext : text.toList with
    | nil => simp [parse, htext] at h
    | cons c digits =>
      by_cases hplus : c = '+'
      · subst hplus
        have hne : digits ≠ [] := by rintro rfl; simp [parse, htext] at h
        rw [parse_plus htext hne] at h
        obtain ⟨m, hm, hle, rfl⟩ := (map_readDigits_eq_ok_iff hne).1 h
        exact .plus htext hm hle
      · by_cases hminus : c = '-'
        · subst hminus
          have hne : digits ≠ [] := by rintro rfl; simp [parse, htext] at h
          rw [parse_minus htext hne] at h
          obtain ⟨m, hm, hle, rfl⟩ := (map_readDigits_eq_ok_iff hne).1 h
          exact .minus htext hm hle
        · rw [parse_plain htext hplus hminus] at h
          obtain ⟨m, hm, hle, rfl⟩ := (map_readDigits_eq_ok_iff (List.cons_ne_nil c digits)).1 h
          exact .plain (htext ▸ hm) hle
  · intro h
    cases h with
    | @plain m hm hle =>
      cases htext : text.toList with
      | nil => exact absurd htext hm.ne_nil
      | cons c digits =>
        rw [htext] at hm
        have hc : c.isDigit = true := hm.isDigit c List.mem_cons_self
        rw [parse_plain htext (by rintro rfl; cases hc) (by rintro rfl; cases hc)]
        exact (map_readDigits_eq_ok_iff hm.ne_nil).2 ⟨m, hm, hle, rfl⟩
    | @plus digits m htext hm hle =>
      rw [parse_plus htext hm.ne_nil]
      exact (map_readDigits_eq_ok_iff hm.ne_nil).2 ⟨m, hm, hle, rfl⟩
    | @minus digits m htext hm hle =>
      rw [parse_minus htext hm.ne_nil]
      exact (map_readDigits_eq_ok_iff hm.ne_nil).2 ⟨m, hm, hle, rfl⟩

end Int64Text

end PolicyGate

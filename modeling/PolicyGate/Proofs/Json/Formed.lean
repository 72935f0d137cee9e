import PolicyGate.Json.Reader
import PolicyGate.Proofs.Json.Lexed

/-!
The form of a rendered JSON value, and what a reader is told about it. Main statement: the compact
text of a value without floating-point numbers has the form of the value (`parse_render`).
-/

namespace PolicyGate.Json

mutual

def form : Json → Form
  | .null => .null
  | .bool b => .bool b
  | .number (.integer n) => .number (textOf n)
  | .number (.float _) => .null
  | .string s => .string (partsOf s)
  | .array items => .array (itemForms items)
  | .object members => .object (memberForms members)

def itemForms : List Json → List Form
  | [] => []
  | item :: rest => form item :: itemForms rest

def memberForms : List (String × Json) → List (List StringPart × Form)
  | [] => []
  | (key, value) :: rest => (partsOf key, form value) :: memberForms rest

end

theorem memberForms_eq_map (members : List (String × Json)) :
    memberForms members = members.map fun (key, value) => (partsOf key, form value) := by
  induction members with
  | nil => simp [memberForms]
  | cons member rest ih => simp [memberForms, ih]

namespace Form

theorem foldlM_cons {s s' : State} {token : Token} (h : step s token = some s')
    (rest : List Token) : (token :: rest).foldlM step s = rest.foldlM step s' := by
  rw [List.foldlM_cons, h]
  rfl

/-- The first item of an array starts like any other value. -/
theorem foldlM_firstItem {j : Json} (h : j.isWhole) (frames : List Frame) (rest : List Token) :
    (j.tokens ++ rest).foldlM step (.firstItem frames) =
      (j.tokens ++ rest).foldlM step (.value (.array [] :: frames)) := by
  match j with
  | .null | .bool _ | .number (.integer _) | .string _ | .array _ | .object _ => rfl

mutual

/-- The tokens of a value hand its form to the innermost open array or object. -/
theorem foldlM_tokens (j : Json) (h : j.isWhole) (frames : List Frame) (rest : List Token) :
    (j.tokens ++ rest).foldlM step (.value frames) =
      rest.foldlM step (close j.form frames) := by
  match j with
  | .null | .bool _ | .number (.integer _) | .string _ => rfl
  | .array [] => rfl
  | .array (item :: items) =>
    simp only [isWhole, areWhole, Bool.and_eq_true] at h
    simp only [tokens, itemTokens, if_true, List.nil_append, List.cons_append, List.append_assoc]
    rw [foldlM_cons rfl, foldlM_firstItem h.1, foldlM_tokens item h.1, close,
      foldlM_itemTokens items h.2, foldlM_cons rfl]
    simp [form, itemForms]
  | .object [] => rfl
  | .object ((key, value) :: members) =>
    simp only [isWhole, haveWhole, Bool.and_eq_true] at h
    simp only [tokens, memberTokens, if_true, List.nil_append, List.cons_append,
      List.append_assoc]
    rw [foldlM_cons rfl, foldlM_cons rfl, foldlM_cons rfl, foldlM_tokens value h.1, close,
      foldlM_memberTokens members h.2, foldlM_cons rfl]
    simp [form, memberForms]

/-- The tokens of items after the first put their forms on the stack. -/
theorem foldlM_itemTokens (items : List Json) (h : areWhole items) (done : List Form)
    (frames : List Frame) (rest : List Token) :
    (itemTokens false items ++ rest).foldlM step (.afterItem done frames) =
      rest.foldlM step (.afterItem ((itemForms items).reverse ++ done) frames) := by
  match items with
  | [] => rfl
  | item :: items =>
    simp only [areWhole, Bool.and_eq_true] at h
    simp only [itemTokens, Bool.false_eq_true, if_false, List.cons_append, List.nil_append,
      List.append_assoc]
    rw [foldlM_cons rfl, foldlM_tokens item h.1, close, foldlM_itemTokens items h.2]
    simp [itemForms]

theorem foldlM_memberTokens (members : List (String × Json)) (h : haveWhole members)
    (done : List (List StringPart × Form)) (frames : List Frame) (rest : List Token) :
    (memberTokens false members ++ rest).foldlM step (.afterMember done frames) =
      rest.foldlM step (.afterMember ((memberForms members).reverse ++ done) frames) := by
  match members with
  | [] => rfl
  | (key, value) :: members =>
    simp only [haveWhole, Bool.and_eq_true] at h
    simp only [memberTokens, Bool.false_eq_true, if_false, List.cons_append, List.nil_append,
      List.append_assoc]
    rw [foldlM_cons rfl, foldlM_cons rfl, foldlM_cons rfl, foldlM_tokens value h.1, close,
      foldlM_memberTokens members h.2]
    simp [memberForms]

end

/-- The compact text of a value has the form of the value. -/
theorem parse_render {j : Json} (h : j.isWhole) : parse j.render = some j.form := by
  have hl := lex_renderChars j h endsNumber_nil
  have hf := foldlM_tokens j h [] []
  rw [List.append_nil] at hl hf
  rw [parse, render, String.toList_ofList, hl, lex]
  simp [ofTokens?, hf, close]

theorem decode?_render {α : Type} {j : Json} (h : j.isWhole) (decoder : Form → Option α) :
    decode? decoder j.render = decoder j.form := by
  rw [decode?, parse_render h, Option.bind_some]

/-! ## What a reader is told -/

@[simp] theorem text_form_string (s : String) : reader.text (form (.string s)) = some s := by
  simp [reader, form, text?, stringText?_partsOf]

theorem digitsValue_toDigits (n : Nat) : digitsValue (Nat.toDigits 10 n) = n :=
  digitsFrom_toDigits n

/-- A rendered whole number of 64 bits, signed or not, is read as itself. -/
theorem value?_textOf (n : Int) :
    (textOf n).value? =
      if -9223372036854775808 ≤ n ∧ n ≤ maxUnsigned then some (.integer n)
      else (textOf n).float?.map .float := by
  unfold NumberText.value?
  simp only [textOf, digitsValue_toDigits]
  by_cases hn : n < 0
  · have hzero : n.natAbs ≠ 0 := by omega
    have habs : -(n.natAbs : Int) = n := by omega
    by_cases hlow : -9223372036854775808 ≤ n
    · have hle : n.natAbs ≤ 9223372036854775808 := by omega
      have hhigh : n ≤ maxUnsigned := by unfold maxUnsigned; omega
      rw [if_neg (by simp [hn]), if_pos (by simp [hn, hzero, hle]), if_pos ⟨hlow, hhigh⟩, habs]
    · have hle : ¬ n.natAbs ≤ 9223372036854775808 := by omega
      simp [hn, hle, hlow]
  · have habs : (n.natAbs : Int) = n := by omega
    have hlow : -9223372036854775808 ≤ n := by omega
    by_cases hhigh : n ≤ maxUnsigned
    · have hle : n.natAbs ≤ maxUnsigned := by omega
      rw [if_pos (by simp [hn, hle]), if_pos ⟨hlow, hhigh⟩, habs]
    · have hle : ¬ n.natAbs ≤ maxUnsigned := by omega
      simp [hn, hle, hhigh]

/-- A whole number is read back exactly if it fits 64 bits with a sign. -/
theorem int_form_int (n : Int) :
    reader.int (form (.int n)) =
      if -9223372036854775808 ≤ n ∧ n ≤ 9223372036854775807 then some n else none := by
  simp only [Json.int, form, reader, value?_textOf]
  by_cases hfits : -9223372036854775808 ≤ n ∧ n ≤ maxUnsigned
  · rw [if_pos hfits]
    simp [hfits.1]
  · have hno : ¬ (-9223372036854775808 ≤ n ∧ n ≤ 9223372036854775807) := by
      unfold maxUnsigned at hfits
      omega
    rw [if_neg hfits, if_neg hno]
    cases (textOf n).float? <;> rfl

/-- An object keeps its members, in their order, when it is written. -/
theorem members?_form_object (members : List (String × Json)) :
    (form (.object members)).members? =
      some (members.map fun (key, value) => (key, value.form)) := by
  rw [form, memberForms_eq_map, members?]
  induction members with
  | nil => rfl
  | cons member rest ih =>
    obtain ⟨key, value⟩ := member
    rw [List.map_cons, List.mapM_cons, ih]
    simp [stringText?_partsOf]

theorem fields_form_object (names : List String) (members : List (String × Json)) :
    reader.fields names (form (.object members)) =
      Wire.fieldsOfEntries names (members.map fun (key, value) => (key, value.form)) := by
  have h := members?_form_object members
  rw [form] at h ⊢
  simp only [reader, h, Option.bind_some]

end Form

end PolicyGate.Json

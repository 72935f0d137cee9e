import PolicyGate.Proofs.Number.Decimal

/-!
The tokens of a rendered JSON value. Main statement: the compact text of a value without
floating-point numbers is cut into the tokens of the value, whatever follows it
(`lex_renderChars`).
-/

namespace PolicyGate.Json

/-- What a character of a string is read back as: a control without an escape of its own becomes
its code. -/
def partOf (c : Char) : StringPart :=
  if c.toNat < 0x20 ∧ c ∉ ['\x08', '\x0c', '\n', '\r', '\t'] then .unit c.toNat else .char c

/-- The parts of a rendered string. -/
def partsOf (s : String) : List StringPart := s.toList.map partOf

/-- The text of a rendered whole number. -/
def textOf (n : Int) : NumberText := ⟨decide (n < 0), Nat.toDigits 10 n.natAbs, none, none⟩

mutual

/-- Whether a value has no floating-point numbers. -/
def isWhole : Json → Bool
  | .number (.float _) => false
  | .array items => areWhole items
  | .object members => haveWhole members
  | _ => true

/-- Whether no item has floating-point numbers. -/
def areWhole : List Json → Bool
  | [] => true
  | item :: rest => item.isWhole && areWhole rest

/-- Whether the value of no member has floating-point numbers. -/
def haveWhole : List (String × Json) → Bool
  | [] => true
  | (_, value) :: rest => value.isWhole && haveWhole rest

end

theorem areWhole_strings (texts : List String) : areWhole (texts.map .string) := by
  induction texts with
  | nil => rfl
  | cons text rest ih => simpa [areWhole, isWhole] using ih

theorem haveWhole_strings (entries : List (String × String)) :
    haveWhole (entries.map fun e => (e.1, .string e.2)) := by
  induction entries with
  | nil => rfl
  | cons entry rest ih => simpa [haveWhole, isWhole] using ih

mutual

/-- The tokens of a value. -/
def tokens : Json → List Token
  | .null => [.null]
  | .bool b => [.bool b]
  | .number (.integer n) => [.number (textOf n)]
  | .number (.float _) => []
  | .string s => [.string (partsOf s)]
  | .array items => .openArray :: (itemTokens true items ++ [.closeArray])
  | .object members => .openObject :: (memberTokens true members ++ [.closeObject])

/-- The tokens of items, with commas between them. -/
def itemTokens (isFirst : Bool) : List Json → List Token
  | [] => []
  | item :: rest => (if isFirst then [] else [.comma]) ++ tokens item ++ itemTokens false rest

/-- The tokens of members, with commas between them. -/
def memberTokens (isFirst : Bool) : List (String × Json) → List Token
  | [] => []
  | (key, value) :: rest =>
    (if isFirst then [] else [.comma]) ++ .string (partsOf key) :: .colon :: tokens value ++
      memberTokens false rest

end

/-! ## Strings -/

theorem stringChars?_partsOf (cs : List Char) : stringChars? (cs.map partOf) = some cs := by
  induction cs with
  | nil => rfl
  | cons c rest ih =>
    rw [List.map_cons, partOf]
    split
    · next h =>
      have hlow : ¬ (0xD800 ≤ c.toNat ∧ c.toNat ≤ 0xDBFF) := by omega
      have hhigh : ¬ (0xDC00 ≤ c.toNat ∧ c.toNat ≤ 0xDFFF) := by omega
      rw [stringChars?.eq_def]
      simp [hlow, hhigh, ih, Char.ofNat_toNat]
    · simp [stringChars?, ih]

theorem stringText?_partsOf (s : String) : stringText? (partsOf s) = some s := by
  simp [stringText?, partsOf, stringChars?_partsOf]

theorem hexUnit?_control {n : Nat} (h : n < 0x20) :
    hexUnit? '0' '0' (Text.hexDigit (n / 16)) (Text.hexDigit (n % 16)) = some n := by
  have : ∀ n < 0x20,
      hexUnit? '0' '0' (Text.hexDigit (n / 16)) (Text.hexDigit (n % 16)) = some n := by decide
  exact this n h

theorem lexString_plain {c : Char} {rest out : List Char} {parts : List StringPart}
    (hquote : c ≠ '"') (hslash : c ≠ '\\') (hcontrol : ¬ c.toNat < 0x20)
    (h : lexString rest = some (parts, out)) :
    lexString (c :: rest) = some (.char c :: parts, out) := by
  rw [lexString.eq_def]
  split
  · next he => cases he
  · next he => cases he; exact absurd rfl hquote
  · next he => cases he; exact absurd rfl hslash
  · next he => cases he; exact absurd rfl hslash
  · next he =>
    cases he
    simp [hcontrol, hslash, h]

/-- Whatever a character is rendered to, it is read back as one part. -/
theorem lexString_escapeChar {c : Char} {rest out : List Char} {parts : List StringPart}
    (h : lexString rest = some (parts, out)) :
    lexString (escapeChar c ++ rest) = some (partOf c :: parts, out) := by
  by_cases hquote : c = '"'
  · subst hquote
    simp [escapeChar, lexString, escapedChar?, partOf, h]
  by_cases hslash : c = '\\'
  · subst hslash
    simp [escapeChar, lexString, escapedChar?, partOf, h]
  by_cases hshort : c ∈ ['\x08', '\x0c', '\n', '\r', '\t']
  · simp only [List.mem_cons, List.not_mem_nil, or_false] at hshort
    rcases hshort with rfl | rfl | rfl | rfl | rfl <;>
      simp [escapeChar, lexString, escapedChar?, partOf, h]
  have hpart : partOf c = if c.toNat < 0x20 then .unit c.toNat else .char c := by
    simp [partOf, hshort]
  simp only [List.mem_cons, List.not_mem_nil, or_false, not_or] at hshort
  obtain ⟨hb, hf, hn, hr, ht⟩ := hshort
  simp only [escapeChar, hquote, hslash, hb, hf, hn, hr, ht, if_false, hpart]
  split
  · next hcontrol => simp [lexString, hexUnit?_control hcontrol, h]
  · next hcontrol => exact lexString_plain hquote hslash hcontrol h

theorem lexString_flatMap (cs rest : List Char) :
    lexString (cs.flatMap escapeChar ++ '"' :: rest) = some (cs.map partOf, rest) := by
  induction cs with
  | nil => simp [lexString]
  | cons c cs ih =>
    rw [List.flatMap_cons, List.append_assoc]
    exact lexString_escapeChar ih

/-! ## Numbers -/

/-- What follows a number does not go on with it. -/
def EndsNumber (rest : List Char) : Prop :=
  ∀ c, rest.head? = some c → c.isDigit = false ∧ c ≠ '.' ∧ c ≠ 'e' ∧ c ≠ 'E'

theorem endsNumber_nil : EndsNumber [] := nofun

theorem endsNumber_cons {c : Char} (h : c = ',' ∨ c = ']' ∨ c = '\x7d') (rest : List Char) :
    EndsNumber (c :: rest) := by
  rintro _ ⟨⟩
  rcases h with rfl | rfl | rfl <;> decide

theorem lexDigits_append {digits rest : List Char} (hne : digits ≠ [])
    (h : ∀ d ∈ digits, d.isDigit = true) (hr : EndsNumber rest) :
    lexDigits (digits ++ rest) = some (digits, rest) := by
  have htake : rest.takeWhile Char.isDigit = [] := by
    cases rest with
    | nil => rfl
    | cons c rest => simp [(hr c rfl).1]
  have hdrop : rest.dropWhile Char.isDigit = rest := by
    cases rest with
    | nil => rfl
    | cons c rest => simp [(hr c rfl).1]
  unfold lexDigits
  rw [List.takeWhile_append_of_pos h, htake, List.append_nil, List.dropWhile_append_of_pos h, hdrop]
  cases digits with
  | nil => exact absurd rfl hne
  | cons => rfl

/-- A rendered natural number is one token, whatever follows that does not go on with it. -/
theorem lexNumber_toDigits (negative : Bool) (n : Nat) {rest : List Char} (hr : EndsNumber rest) :
    lexNumber negative (Nat.toDigits 10 n ++ rest) =
      some (⟨negative, Nat.toDigits 10 n, none, none⟩, rest) := by
  have hwhole : lexWhole (Nat.toDigits 10 n ++ rest) = some (Nat.toDigits 10 n, rest) := by
    by_cases hn : n = 0
    · subst hn
      rfl
    · have hhead := head?_toDigits_ne_zero (Nat.pos_of_ne_zero hn)
      have hdigits : lexDigits (Nat.toDigits 10 n ++ rest) = some (Nat.toDigits 10 n, rest) :=
        lexDigits_append Nat.toDigits_ne_nil (fun _ => isDigit_of_mem_toDigits) hr
      unfold lexWhole
      split
      · next he =>
        cases hd : Nat.toDigits 10 n with
        | nil => exact absurd hd Nat.toDigits_ne_nil
        | cons d ds => rw [hd] at he hhead; cases he; exact absurd rfl hhead
      · exact hdigits
  have hfraction : lexFraction rest = some (none, rest) := by
    unfold lexFraction
    split
    · exact absurd rfl (hr '.' rfl).2.1
    · rfl
  have hexponent : lexExponent rest = some (none, rest) := by
    unfold lexExponent
    split
    · rfl
    · next c rest =>
      obtain ⟨-, -, he, hE⟩ := hr c rfl
      rw [if_neg (by simp [he, hE])]
  simp [lexNumber, hwhole, hfraction, hexponent]

/-! ## Values -/

theorem lex_cons {c : Char} {rest rest' : List Char} {token : Token} (hs : isSpace c = false)
    (h : lexToken c rest = some (token, rest')) :
    lex (c :: rest) = (lex rest').map fun tokens => token :: tokens := by
  rw [lex, if_neg (by simp [hs])]
  split
  · next token' rest'' ht =>
    rw [h] at ht
    cases ht
    rfl
  · next ht =>
    rw [h] at ht
    cases ht

theorem lex_renderString (s : String) (rest : List Char) :
    lex (renderString s ++ rest) =
      (lex rest).map fun tokens => .string (partsOf s) :: tokens := by
  have h : renderString s ++ rest = '"' :: (s.toList.flatMap escapeChar ++ '"' :: rest) := by
    simp [renderString]
  rw [h]
  exact lex_cons rfl (by simp [lexToken, lexString_flatMap, partsOf])

/-- A digit starts a number and nothing else. -/
theorem lexToken_of_isDigit {c : Char} (h : c.isDigit = true) (rest : List Char) :
    lexToken c rest =
      (lexNumber false (c :: rest)).map fun (text, rest) => (.number text, rest) := by
  rw [lexToken.eq_def]
  split
  all_goals first | rfl | cases h

theorem isSpace_of_isDigit {c : Char} (h : c.isDigit = true) : isSpace c = false := by
  simp only [isSpace, Bool.or_eq_false_iff, decide_eq_false_iff_not]
  refine ⟨⟨⟨?_, ?_⟩, ?_⟩, ?_⟩ <;> rintro rfl <;> cases h

theorem lex_renderInt (n : Int) {rest : List Char} (hr : EndsNumber rest) :
    lex (renderInt n ++ rest) = (lex rest).map fun tokens => .number (textOf n) :: tokens := by
  unfold renderInt textOf
  by_cases hn : n < 0
  · simp only [hn, if_true, decide_true, List.singleton_append]
    refine lex_cons rfl ?_
    simp [lexToken, lexNumber_toDigits true n.natAbs hr]
  · have hnum := lexNumber_toDigits false n.natAbs hr
    simp only [hn, if_false, decide_false, List.nil_append]
    cases hd : Nat.toDigits 10 n.natAbs with
    | nil => exact absurd hd Nat.toDigits_ne_nil
    | cons d digits =>
      rw [hd] at hnum
      have hdigit : d.isDigit = true := isDigit_of_mem_toDigits (hd ▸ List.mem_cons_self)
      refine lex_cons (isSpace_of_isDigit hdigit) ?_
      rw [lexToken_of_isDigit hdigit]
      exact congrArg _ hnum

theorem endsNumber_renderItems (items : List Json) {rest : List Char} (hr : EndsNumber rest) :
    EndsNumber (renderItems false items ++ rest) := by
  cases items with
  | nil => exact hr
  | cons item items => exact endsNumber_cons (.inl rfl) _

theorem endsNumber_renderMembers (members : List (String × Json)) {rest : List Char}
    (hr : EndsNumber rest) : EndsNumber (renderMembers false members ++ rest) := by
  cases members with
  | nil => exact hr
  | cons member members => exact endsNumber_cons (.inl rfl) _

/-- A comma that stands before all but the first is one token. -/
theorem lex_comma (isFirst : Bool) (cs : List Char) :
    lex ((if isFirst then [] else [',']) ++ cs) =
      (lex cs).map ((if isFirst then [] else [.comma]) ++ ·) := by
  cases isFirst with
  | true => simp
  | false => exact lex_cons rfl rfl

mutual

/-- A value without floating-point numbers is cut into its tokens, whatever follows it. -/
theorem lex_renderChars (j : Json) (h : j.isWhole) {rest : List Char} (hr : EndsNumber rest) :
    lex (j.renderChars ++ rest) = (lex rest).map (j.tokens ++ ·) := by
  match j with
  | .null => exact lex_cons rfl rfl
  | .bool true => exact lex_cons rfl rfl
  | .bool false => exact lex_cons rfl rfl
  | .number (.integer n) => exact lex_renderInt n hr
  | .string s => exact lex_renderString s rest
  | .array items =>
    have hi := lex_renderItems true items h (endsNumber_cons (.inr (.inl rfl)) rest)
    simp only [renderChars, tokens, List.cons_append, List.append_assoc, List.nil_append]
    rw [lex_cons rfl rfl, hi, lex_cons rfl rfl]
    simp [Function.comp_def]
  | .object members =>
    have hm := lex_renderMembers true members h (endsNumber_cons (.inr (.inr rfl)) rest)
    simp only [renderChars, tokens, List.cons_append, List.append_assoc, List.nil_append]
    rw [lex_cons rfl rfl, hm, lex_cons rfl rfl]
    simp [Function.comp_def]

/-- The text of items is lexed to the tokens of the items. -/
theorem lex_renderItems (isFirst : Bool) (items : List Json) (h : areWhole items)
    {rest : List Char} (hr : EndsNumber rest) :
    lex (renderItems isFirst items ++ rest) = (lex rest).map (itemTokens isFirst items ++ ·) := by
  match items with
  | [] => simp [renderItems, itemTokens]
  | item :: items =>
    simp only [areWhole, Bool.and_eq_true] at h
    have hitem := lex_renderChars item h.1 (endsNumber_renderItems items hr)
    have hitems := lex_renderItems false items h.2 hr
    simp only [renderItems, itemTokens, List.append_assoc]
    rw [lex_comma, hitem, hitems]
    simp [Function.comp_def]

theorem lex_renderMembers (isFirst : Bool) (members : List (String × Json))
    (h : haveWhole members) {rest : List Char} (hr : EndsNumber rest) :
    lex (renderMembers isFirst members ++ rest) =
      (lex rest).map (memberTokens isFirst members ++ ·) := by
  match members with
  | [] => simp [renderMembers, memberTokens]
  | (key, value) :: members =>
    simp only [haveWhole, Bool.and_eq_true] at h
    have hvalue := lex_renderChars value h.1 (endsNumber_renderMembers members hr)
    have hmembers := lex_renderMembers false members h.2 hr
    simp only [renderMembers, memberTokens, List.append_assoc, List.cons_append]
    rw [lex_comma, lex_renderString, lex_cons rfl rfl, hvalue, hmembers]
    simp [Function.comp_def]

end

end PolicyGate.Json

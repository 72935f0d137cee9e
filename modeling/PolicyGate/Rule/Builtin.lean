import PolicyGate.Record
import PolicyGate.Rule.Basic

/-!
The built-in rules: pass or deny everything, require a role or a purpose, and mask or redact a field
of a record. Main statements: a masked field holds null or is absent, and a redacted one is absent.
-/

namespace PolicyGate.Rule

variable {α : Type}

/-- Keeps every item. -/
def passThrough : Rule α := ofGuard fun _ _ => true

/-- Drops every item. -/
def denyAll : Rule α := ofGuard fun _ _ => false

/-- Keeps the item if the user has a role. -/
def requireRole (role : String) : Rule α := ofGuard fun user _ => user.hasRole role

/-- Keeps the item if the context declares a purpose. -/
def requirePurpose (purpose : String) : Rule α :=
  ofGuard fun _ context => context.purpose? = some purpose

/-- Puts null into a field that the record has. -/
def maskField (field : String) : Rule Record :=
  ofFunction fun record => if record.contains field then record.set field .null else record

def redactField (field : String) : Rule Record := ofFunction fun record => record.remove field

theorem get?_of_maskField {field : String} {record record' : Record} {user : User}
    {context : Context} (h : (maskField field).run record user context = .ok (some record')) :
    record'.get? field = if record.contains field then some .null else none := by
  simp only [maskField, ofFunction, Except.ok.injEq, Option.some.injEq] at h
  subst h
  by_cases hc : record.contains field
  · simp [hc, Record.get?_set]
  · simp only [hc, Bool.false_eq_true, if_false]
    simpa [Record.contains, SortedMap.contains, Record.get?] using hc

theorem get?_of_redactField {field : String} {record record' : Record} {user : User}
    {context : Context} (h : (redactField field).run record user context = .ok (some record')) :
    record'.get? field = none := by
  simp only [redactField, ofFunction, Except.ok.injEq, Option.some.injEq] at h
  subst h
  simp [Record.get?_remove]

end PolicyGate.Rule

import PolicyGate.Rule.Apply
import PolicyGate.Rule.Builtin
import PolicyGate.Rule.Registry
import PolicyGate.Stage.Request

/-!
Filtering records: those that the rules recorded for a token and a resource keep. Main statement:
without an authorisation the records are refused.
-/

namespace PolicyGate

/-- Applies rules to records in order and collects those that are kept; the first failure
decides. -/
def keepRecords (rules : Option (CompiledRules Record)) (user : User) (context : Context) :
    List Record → Except RuleError (List Record)
  | [] => .ok []
  | record :: rest => do
    let kept ← CompiledRules.apply rules record user context
    return kept.toList ++ (← keepRecords rules user context rest)

def AuthorisedRequest.compileRecordRules (a : AuthorisedRequest) (catalog : Catalog) :
    Except RuleError (Option (CompiledRules Record)) :=
  match a.recordRules with
  | some rules => (catalog.record.compile rules).map some
  | none => .ok none

/-- Filters records by what a store found for a key. -/
def filterRecords (catalog : Catalog) (key : String)
    (found : Except StoreError (Option AuthorisedRequest)) (records : List Record) :
    Except StageError (List Record) :=
  match found with
  | .error e => .error (.store e)
  | .ok none => .error (.invalidRequest ("no authorised request for " ++ key))
  | .ok (some a) =>
    match a.compileRecordRules catalog with
    | .error e => .error (.rule e)
    | .ok rules => (keepRecords rules a.user a.context records).mapError .rule

theorem filterRecords_none (catalog : Catalog) (key : String) (records : List Record) :
    filterRecords catalog key (.ok none) records =
      .error (.invalidRequest ("no authorised request for " ++ key)) := rfl

end PolicyGate

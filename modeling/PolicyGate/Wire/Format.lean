import PolicyGate.Json.Reader
import PolicyGate.Yaml.Reader

/-!
The formats in which documents are written. A decoder that is written for every source of values
reads both. Main statement: JSON is chosen by its name, and every other name stands for YAML.
-/

namespace PolicyGate

/-- A format of documents. -/
inductive Format where
  | json
  | yaml
  deriving DecidableEq, Repr

/-- A decoder for every source of values. -/
abbrev Decoder (α : Type) :=
  {m : Type → Type} → [Wire.Decoding m] → {D : Type} → Wire.Reader m D → D → m α

namespace Format

def ofName : String → Format
  | "json" => json
  | _ => yaml

/-- Decodes a text that is written in a format. -/
def decode? {α : Type} (f : Format) (decoder : Decoder α) (text : String) : Option α :=
  match f with
  | json => Json.decode? (decoder Json.Form.reader) text
  | yaml => Yaml.decode? (fun targets => decoder (Yaml.Node.reader targets)) text

theorem ofName_eq_json_iff (name : String) : ofName name = json ↔ name = "json" := by
  unfold ofName
  split <;> simp_all

end Format

end PolicyGate

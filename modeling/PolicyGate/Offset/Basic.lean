import PolicyGate.Json.Text
import PolicyGate.Subject
import PolicyGate.Store.Error
import PolicyGate.Time.Duration

/-!
Token offsets: the place in a log where the results of a token can be read, and the reasons for
which a client gets none. Main statement: an offset is shown with its token.
-/

namespace PolicyGate

variable {m : Type → Type} [Wire.Decoding m] {D : Type}

/-- A token with the offset at which its results start or end. -/
structure TokenOffset where
  token : Token
  offset : Int
  deriving DecidableEq, Repr, Inhabited

namespace TokenOffset

def decode (r : Wire.Reader m D) (d : D) : m TokenOffset := do
  let fields ← r.fields ["token", "offset"] d
  return ⟨← fields.required 0 (Token.decode r), ← fields.required 1 r.int⟩

def toJson (o : TokenOffset) : Json :=
  .object [("token", o.token.toJson), ("offset", .int o.offset)]

/-- The token offset in words. -/
def text (o : TokenOffset) : String :=
  "token=" ++ o.token.text ++ " offset=" ++ String.ofList (Json.renderInt o.offset)

end TokenOffset

/-- The reasons for which a request for an offset fails. -/
inductive OffsetError where
  | lookup (error : StoreError)
  | timedOut (token : Token) (after : Duration)
  | cancelled (token : Token) (reason : String)
  | workerLost (token : Token)
  deriving DecidableEq, Repr

namespace OffsetError

def message : OffsetError → String
  | lookup error => "offset lookup failed: " ++ error.message
  | timedOut token after => "no offset for token " ++ token.text ++ " within " ++ after.inspect
  | cancelled token reason =>
    "offset request for token " ++ token.text ++ " cancelled: " ++ reason
  | workerLost token => "offset worker for token " ++ token.text ++ " stopped without replying"

/-- Whether the store failed, as opposed to no offset being known. -/
def isLookup : OffsetError → Bool
  | lookup _ => true
  | _ => false

end OffsetError

/-- What a request for an offset is answered. -/
abbrev OffsetReply := Except OffsetError TokenOffset

end PolicyGate

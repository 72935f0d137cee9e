import PolicyGate.Subject

/-!
Fresh tokens: 128 random bits in the usual notation, with the bits that say that they are random.
Main statement: the notation has one piece for every length that is asked for.
-/

namespace PolicyGate.Token

/-- The two hexadecimal digits of an octet. -/
def octetDigits (octet : UInt8) : List Char :=
  let digits := Nat.toDigits 16 octet.toNat
  if digits.length < 2 then '0' :: digits else digits

/-- Marks sixteen octets as random ones. -/
def markRandom (octets : List UInt8) : List UInt8 :=
  (octets.modify 6 fun octet => octet &&& 0x0F ||| 0x40).modify 8 fun octet =>
    octet &&& 0x3F ||| 0x80

/-- Cuts a list into pieces of given lengths. -/
def pieces : List Nat → List Char → List String
  | [], _ => []
  | size :: sizes, cs => String.ofList (cs.take size) :: pieces sizes (cs.drop size)

/-- The token of sixteen random octets. -/
def ofOctets (octets : List UInt8) : Token :=
  ⟨"-".intercalate (pieces [8, 4, 4, 4, 12] ((markRandom octets).flatMap octetDigits))⟩

theorem length_pieces (sizes : List Nat) (cs : List Char) :
    (pieces sizes cs).length = sizes.length := by
  induction sizes generalizing cs with
  | nil => rfl
  | cons size sizes ih => simp [pieces, ih]

end PolicyGate.Token

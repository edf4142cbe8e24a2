import ChainEconomy.Blake3
import ChainEconomy.Json.Record
import ChainEconomy.Text.Utf8
import ChainEconomy.KeyOrder

/-! # Addresses

An account's address is 32 bytes, written as `t` and 64 lowercase hexadecimal digits. The address of
a module is the hash of a fixed text and the module's name, so that nobody holds a key for it. -/

namespace ChainEconomy

/-- The address of an account. -/
structure Address where
  bytes : Bytes
  length_eq : bytes.length = 32

namespace Address

instance : DecidableEq Address := fun a b =>
  decidable_of_iff (a.bytes = b.bytes) (by cases a; cases b; simp)

/-- An address is determined by its bytes. -/
theorem bytes_injective {a b : Address} (h : a.bytes = b.bytes) : a = b := by
  cases a; cases b; simp_all

instance : KeyOrder Address := KeyOrder.ofInjection bytes bytes_injective

/-- The address that stands for no account. -/
def zero : Address := ⟨List.replicate 32 0, by simp⟩

instance : Inhabited Address := ⟨zero⟩

/-- Whether the address stands for no account. -/
def isZero (a : Address) : Bool := a.bytes == zero.bytes

/-- The address of a module's account. -/
def ofModule (name : String) : Address :=
  ⟨Blake3.hash (Text.Utf8.ofString "MODULE_ACCOUNT" ++ Text.Utf8.ofString name), by simp⟩

/-! ## Written form -/

/-- Why a text is no address. -/
inductive Error where
  | missingPrefix (text : String)
  | wrongLength (digits : Nat)
  | notHex (bad : Text.Hex.BadDigit)
  deriving DecidableEq, Repr

/-- The wording of a refusal; a byte that is no digit is shown as the character of its value. -/
def Error.message : Error → String
  | .missingPrefix text => "address " ++ Text.quoted text ++ " does not start with 't'"
  | .wrongLength digits => s!"address has {digits} hex digits, want 64"
  | .notHex bad =>
    let shown := Text.quotedChar (Char.ofNat bad.byte.toNat)
    let position := bad.position
    s!"address payload is not hex: Invalid character {shown} at position {position}"

/-- The characters of an address. -/
def renderChars (a : Address) : List Char := 't' :: Text.Hex.encode a.bytes

/-- The text of an address. -/
def render (a : Address) : String := String.ofList a.renderChars

instance : ToString Address := ⟨render⟩

/-- Reads an address. The digits are counted in bytes, before any of them is looked at. -/
def parse : List Char → Except Error Address
  | 't' :: rest =>
    let digits := Text.Utf8.encode rest
    if hlen : digits.length = 64 then
      match h : Text.Hex.decode digits with
      | .error bad => .error (.notHex bad)
      | .ok bytes => .ok ⟨bytes, by rw [Text.Hex.length_of_decodeFrom h, hlen]⟩
    else .error (.wrongLength digits.length)
  | text => .error (.missingPrefix (String.ofList text))

/-- An address as a string of its text. -/
def toJson (a : Address) : Json := .string a.render

/-- Reads an address from a string. -/
def ofJson (j : Json) : Except Json.Fault Address :=
  match j.toText with
  | .error f => .error f
  | .ok s =>
    match parse s.toList with
    | .ok a => .ok a
    | .error e => .error (Json.Fault.at (.rejected e.message)).detached

/-! ## The accounts of modules -/

/-- Receives the surcharge of every transaction. -/
def feeCollector : Address := ofModule "fee_collector"

/-- Holds new supply until it is distributed. -/
def minter : Address := ofModule "mint"

/-- Receives the smaller half of new supply. -/
def treasuryPool : Address := ofModule "treasury_pool"

/-- Receives the larger half of new supply. -/
def rewardsPool : Address := ofModule "rewards_pool"

end Address

end ChainEconomy

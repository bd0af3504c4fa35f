/-
  The networks a transaction can be bound to, each with the
  byte that stands for it on the wire.

  Key definitions include:
    * `Network`
    * `Network.byte`
    * `Network.ofByte?`
    * `Network.name`
-/

namespace DriveMarket

/- The known networks. -/
inductive Network where
  | mainNet
  | testNet
  | «private»
  | privateTest
  | mijin
  | mijinTest
deriving DecidableEq

namespace Network

/- Every network, in order of declaration. -/
def all : List Network :=
  [.mainNet, .testNet, .private, .privateTest, .mijin,
    .mijinTest]

/- The byte of a network. -/
def byte : Network → UInt8
  | .mainNet => 0xb8
  | .testNet => 0xa8
  | .private => 0xc8
  | .privateTest => 0xb0
  | .mijin => 0x60
  | .mijinTest => 0x90

/- The network of a byte, if there is one. -/
def ofByte?
    (b : UInt8) : Option Network :=
  all.find? (·.byte == b)

/- The name of a network. -/
def name : Network → String
  | .mainNet => "MainNet"
  | .testNet => "TestNet"
  | .private => "Private"
  | .privateTest => "PrivateTest"
  | .mijin => "Mijin"
  | .mijinTest => "MijinTest"

/- The network of a name, if there is one. -/
def ofName?
    (text : String) : Option Network :=
  all.find? (·.name == text)

/- Refusal of a byte that stands for no network. -/
def unknownMessage
    (b : UInt8) : String :=
  let digits := Nat.toDigits 16 b.toNat
  "Unknown network type: 0x" ++
    String.ofList (List.replicate (2 - digits.length) '0') ++
      String.ofList digits

theorem ofByte?_byte
    (network : Network) :
    ofByte? network.byte = some network := by
  cases network <;> decide

theorem ofName?_name
    (network : Network) :
    ofName? network.name = some network := by
  cases network <;> decide

end Network

end DriveMarket

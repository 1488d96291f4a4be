import PreviewDeploy.Text.Base64Url
import PreviewDeploy.Text.Bytes

/-!
# Identifiers

Sessions and deployments are named locally: a word, an underscore and a UUID of version 7, which
starts with the time, so that identifiers sort by the order in which they were minted.  A
`Minter` holds the time and how many identifiers it has given out; it puts that number into the
UUID, so no two of its identifiers are equal.  Instances are named by the control plane.
-/

namespace PreviewDeploy

structure SessionId where
  text : String
  deriving DecidableEq, Repr, Inhabited

structure DeploymentId where
  text : String
  deriving DecidableEq, Repr, Inhabited

/-- The name that the control plane gave to an instance. -/
structure InstanceId where
  text : String
  deriving DecidableEq, Repr, Inhabited

/-- A UUID of version 7 with the given milliseconds and the given number in its last 62 bits. -/
def uuid (millis serial : Nat) : String :=
  let time := hexDigits 12 millis
  let high := serial / Nat.pow 2 48 % Nat.pow 2 14 + Nat.pow 2 15
  String.ofList (time.take 8 ++ '-' :: (time.drop 8 ++ "-7000-".toList ++ hexDigits 4 high ++
    '-' :: hexDigits 12 serial))

/-- What identifiers are minted from. -/
structure Minter where
  /-- Milliseconds since 1970-01-01. -/
  millis : Nat := 0
  /-- How many identifiers were minted. -/
  issued : Nat := 0
  deriving DecidableEq, Repr, Inhabited

namespace Minter

def next (m : Minter) : Minter := { m with issued := m.issued + 1 }

def sessionId (m : Minter) : SessionId := ⟨"sess_" ++ uuid m.millis m.issued⟩

def deploymentId (m : Minter) : DeploymentId := ⟨"dep_" ++ uuid m.millis m.issued⟩

/-- Sixteen bytes, as 22 characters. -/
def nonce (m : Minter) : String := String.ofList (Base64Url.encode (bigEndian 16 m.issued))

end Minter

/-- A word, an underscore and a UUID of version 7. -/
def isMinted (word text : String) : Bool :=
  let cs := text.toList
  let start := word.toList ++ ['_']
  let rest := cs.drop start.length
  let isHex (c : Char) : Bool := ('0' ≤ c && c ≤ '9') || ('a' ≤ c && c ≤ 'f')
  start.isPrefixOf cs && rest.length = 36 &&
    (rest.zipIdx.all fun (c, i) =>
      if i = 8 ∨ i = 13 ∨ i = 18 ∨ i = 23 then c = '-'
      else if i = 14 then c = '7'
      else if i = 19 then c = '8' || c = '9' || c = 'a' || c = 'b'
      else isHex c)

end PreviewDeploy

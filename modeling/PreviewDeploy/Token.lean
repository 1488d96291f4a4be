import PreviewDeploy.Crypto.Sha256
import PreviewDeploy.Identifier
import PreviewDeploy.Json.Reader
import PreviewDeploy.Json.Record
import PreviewDeploy.Json.Writer
import PreviewDeploy.Text.Base64Url
import PreviewDeploy.Token.Key

/-!
# Proxy tokens

A token lets an instance use the proxy on behalf of its session, for a limited time.  It has three
segments in base64 for URLs, between dots: a header that names the algorithm, the claims, and the
HMAC-SHA256 of the first two segments with their dot under a shared secret.

`Token.mint` writes a token, and `Token.verify` accepts one if its segments can be read, the
header names HS256, the third segment is the signature of the others, it has not expired more
than `leeway` seconds ago, it has no audience, and its scope is the proxy.
-/

namespace PreviewDeploy

open Json (Tree)
open Json.Record (slots tree)

/-- What a token says. -/
structure Claims where
  /-- The session that the token was minted for. -/
  subject : String
  issuedAt : Int64
  expires : Int64
  nonce : String
  scope : String
  deriving DecidableEq, Repr, Inhabited

namespace Claims

def fields : List String := ["sub", "iat", "exp", "jti", "scope"]

def ofTree (t : Tree) : Option Claims :=
  match slots fields t with
  | some [subject, issuedAt, expires, nonce, scope] => do
    let subject ← subject.required (·.string?)
    let issuedAt ← issuedAt.required (·.int64?)
    let expires ← expires.required (·.int64?)
    let nonce ← nonce.required (·.string?)
    let scope ← scope.required (·.string?)
    pure { subject, issuedAt, expires, nonce, scope }
  | _ => none

def toTree (c : Claims) : Tree :=
  tree [("sub", .ofString c.subject), ("iat", .ofInt c.issuedAt.toInt),
    ("exp", .ofInt c.expires.toInt), ("jti", .ofString c.nonce), ("scope", .ofString c.scope)]

instance : Json.Form Claims := ⟨ofTree, toTree⟩

end Claims

/-- Why a token is refused. -/
inductive TokenFlaw where
  /-- No three segments. -/
  | malformed
  | base64
  | json
  | algorithm
  | signature
  | noExpiry
  | noSubject
  | expired
  | audience
  | scope (found : String)
  deriving DecidableEq, Repr, Inhabited

namespace TokenFlaw

/-- The text of a flaw, without the reason of a reader. -/
def message : TokenFlaw → String
  | malformed => "invalid proxy token: InvalidToken"
  | base64 => "invalid proxy token: Base64 error"
  | json => "invalid proxy token: JSON error"
  | algorithm => "invalid proxy token: InvalidAlgorithm"
  | signature => "invalid proxy token: InvalidSignature"
  | noExpiry => "invalid proxy token: Missing required claim: exp"
  | noSubject => "invalid proxy token: Missing required claim: sub"
  | expired => "invalid proxy token: ExpiredSignature"
  | audience => "invalid proxy token: InvalidAudience"
  | scope found => "unexpected token scope: " ++ found

end TokenFlaw

namespace Token

/-- The scope of every token. -/
def proxyScope : String := "ai-proxy"

/-- Seconds for which an expired token is still accepted. -/
def leeway : Int := 60

def maxInt64 : Int := int64Bound - 1

/-- The signature of a message, as a segment. -/
def sign (secret : String) (message : List Char) : List Char :=
  Base64Url.encode (Sha256.hmac (utf8 secret) (utf8 (String.ofList message)))

/-- A tree as a segment. -/
def segment (t : Tree) : List Char := Base64Url.encode (utf8 t.text)

/-- The header of every token that is minted. -/
def header : Tree := tree [("typ", .ofString "JWT"), ("alg", .ofString "HS256")]

/-- The token of claims. -/
def ofClaims (secret : String) (c : Claims) : String :=
  let message := segment header ++ '.' :: segment c.toTree
  String.ofList (message ++ '.' :: sign secret message)

/-- The claims of a token minted at a time, in seconds since 1970. -/
def claims (session : SessionId) (ttlSecs : UInt64) (now : Int64) (nonce : String) : Claims where
  subject := session.text
  issuedAt := now
  expires := Int64.ofInt (min (now.toInt + min (ttlSecs.toNat : Int) maxInt64) maxInt64)
  nonce := nonce
  scope := proxyScope

/-- A token for a session. -/
def mint (secret : String) (session : SessionId) (ttlSecs : UInt64) (now : Int64)
    (nonce : String) : String :=
  ofClaims secret (claims session ttlSecs now nonce)

/-! ### Verification -/

/-- The text up to the last dot and the text after it. -/
def splitLast : List Char → Option (List Char × List Char)
  | [] => none
  | c :: rest =>
    match splitLast rest with
    | some (before, after) => some (c :: before, after)
    | none => if c = '.' then some ([], rest) else none

def headerFields : List String :=
  ["typ", "alg", "cty", "jku", "jwk", "kid", "x5u", "x5c", "x5t", "x5t#S256"]

/-- A key as it should be. -/
def readKey (t : Tree) : Option Unit := if Key.isWellFormed t then some () else none

/-- The algorithm that a header names, if the header can be read. -/
def headerAlgorithm (t : Tree) : Option String :=
  match slots headerFields t with
  | some [typ, alg, cty, jku, jwk, kid, x5u, x5c, x5t, x5t256] => do
    let _ ← typ.optional (·.string?)
    let alg ← alg.required (Key.name? Key.signatures)
    let _ ← cty.optional (·.string?)
    let _ ← jku.optional (·.string?)
    let _ ← jwk.optional readKey
    let _ ← kid.optional (·.string?)
    let _ ← x5u.optional (·.string?)
    let _ ← x5c.optional (·.list? (·.string?))
    let _ ← x5t.optional (·.string?)
    let _ ← x5t256.optional (·.string?)
    pure alg
  | _ => none

/-- The tree that a segment holds. -/
def treeOfSegment (cs : List Char) : Except TokenFlaw Tree :=
  match Base64Url.decode? cs with
  | none => .error .base64
  | some bytes =>
    match (ofUtf8? bytes).bind Tree.parse with
    | none => .error .json
    | some t => .ok t

/-- An audience, one text or several. -/
def isAudience : Tree → Bool
  | .string (some _) => true
  | .array items => items.all fun t => t.string?.isSome
  | _ => false

/-- The start of a token's validity is not looked at, but it has to be no container with something
in it and no string without a value. -/
def isSkippable : Json.Slot → Bool
  | .given (.array (_ :: _)) | .given (.object (_ :: _)) | .given (.string none) => false
  | _ => true

/-- Checks what claims say beside their fields, at a time in seconds since 1970. -/
def checkClaims (now : Int) (t : Tree) : Except TokenFlaw Unit :=
  match slots ["exp", "nbf", "sub", "iss", "aud"] t with
  | some [expires, notBefore, subject, _, audience] =>
    if !isSkippable notBefore then .error .json
    else match expires with
    | .given (.number (some (.integer e))) =>
      if e < 0 then .error .noExpiry
      else
        match subject with
        | .given (.string (some _)) =>
          if e < now - leeway then .error .expired
          else
            match audience with
            | .given a => if isAudience a then .error .audience else .ok ()
            | _ => .ok ()
        | _ => .error .noSubject
    | _ => .error .noExpiry
  | _ => .error .json

/-- The claims of a token, if it is accepted at a time in seconds since 1970. -/
def verify (secret : String) (now : Int) (token : String) : Except TokenFlaw Claims := do
  let some (message, signature) := splitLast token.toList | .error .malformed
  let some (head, payload) := splitLast message | .error .malformed
  let some alg := headerAlgorithm (← treeOfSegment head) | .error .json
  if alg ≠ "HS256" then .error .algorithm
  else if signature ≠ sign secret message then .error .signature
  else
    let t ← treeOfSegment payload
    let some c := Claims.ofTree t | .error .json
    checkClaims now t
    if c.scope ≠ proxyScope then .error (.scope c.scope) else .ok c

end Token

end PreviewDeploy

import PreviewDeploy.Json.Record

/-!
# Keys in token headers

The header of a token may show the key that it was signed with.  A key has a type, which says
which other members it needs, and some members that every key may have.  Keys are not used, but
a header with something else in the place of a key cannot be read (`Key.isWellFormed`).
-/

namespace PreviewDeploy.Token

open Json (Tree)
open Json.Record (slots)

namespace Key

/-- The algorithms that tokens are signed with. -/
def signatures : List String :=
  ["HS256", "HS384", "HS512", "ES256", "ES384", "RS256", "RS384", "PS256", "PS384", "PS512",
    "RS512", "EdDSA"]

/-- The algorithms that keys are for. -/
def algorithms : List String := signatures ++ ["RSA1_5", "RSA-OAEP", "RSA-OAEP-256"]

/-- One of some names: a word, or an object that has it as the only key, with null. -/
def name? (names : List String) : Tree → Option String
  | .string (some word) => if names.contains word then some word else none
  | .object [(some word, .null)] => if names.contains word then some word else none
  | _ => none

def curves : List String := ["P-256", "P-384", "P-521", "Ed25519"]

/-- The members that every key may have. -/
def hasCommon (t : Tree) : Bool :=
  match slots ["use", "key_ops", "alg", "kid", "x5u", "x5c", "x5t", "x5t#S256"] t with
  | some [use, operations, algorithm, id, url, chain, sha1, sha256] =>
    (use.optional (·.string?)).isSome && (operations.optional (·.list? (·.string?))).isSome &&
      (algorithm.optional (name? algorithms)).isSome && (id.optional (·.string?)).isSome &&
      (url.optional (·.string?)).isSome && (chain.optional (·.list? (·.string?))).isSome &&
      (sha1.optional (·.string?)).isSome && (sha256.optional (·.string?)).isSome
  | _ => false

/-- A type with some texts, and a curve if the type has one. -/
def hasType (type : String) (curve : Bool) (texts : List String) (t : Tree) : Bool :=
  match slots ("kty" :: "crv" :: texts) t with
  | some (found :: shape :: values) =>
    (found.required (name? [type])).isSome &&
      (!curve || (shape.required (name? curves)).isSome) &&
      values.all fun value => (value.required (·.string?)).isSome
  | _ => false

/-- A key, all of whose members have values. -/
def isWellFormed : Tree → Bool
  | .object members =>
    let t := Tree.object members
    t.toJson.isSome && hasCommon t &&
      (hasType "EC" true ["x", "y"] t || hasType "RSA" false ["n", "e"] t ||
        hasType "oct" false ["k"] t || hasType "OKP" true ["x"] t)
  | _ => false

end Key

end PreviewDeploy.Token

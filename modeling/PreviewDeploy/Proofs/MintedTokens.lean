import PreviewDeploy.InstanceEnv
import PreviewDeploy.Proofs.Encodings
import PreviewDeploy.Proofs.JsonMembers

/-!
# Minted tokens

The token of claims is accepted under the secret that it was signed with, and says these claims,
unless it has expired (`Token.verify_ofClaims`).  So the token in the variables for a new instance
is one for the session that the variables were made for (`InstanceEnv.exists_token`).
-/

namespace PreviewDeploy

open Json (Slot Tree)
open Json.Record (membersAt slots slotsOfMembers tree)

namespace Claims

variable (c : Claims)

theorem isPlain_toTree : c.toTree.IsPlain := by
  have h₁ := c.issuedAt.le_toInt
  have h₂ := c.issuedAt.toInt_lt
  have h₃ := c.expires.le_toInt
  have h₄ := c.expires.toInt_lt
  have hsize : (UInt64.size : Int) = 18446744073709551616 := rfl
  have hbound : int64Bound = 9223372036854775808 := rfl
  have inRange {n : Int} (hlow : -2 ^ 63 ≤ n) (hhigh : n < 2 ^ 63) : Json.Number.InRange n := by
    unfold Json.Number.InRange
    omega
  exact ⟨rfl, rfl, rfl, inRange h₁ h₂, rfl, inRange h₃ h₄, rfl, rfl, rfl, rfl, trivial⟩

theorem int64?_ofInt (n : Int64) : (Tree.ofInt n.toInt).int64? = some n := by
  have hlow := n.le_toInt
  have hhigh := n.toInt_lt
  have hbound : int64Bound = 9223372036854775808 := rfl
  simp only [Tree.int64?, Tree.ofInt, Tree.intBetween?]
  rw [if_pos (by omega), Option.map_some, Int64.ofInt_toInt]

theorem ofTree_toTree : ofTree c.toTree = some c := by
  have hslots : slots fields c.toTree = some [.given (.ofString c.subject),
      .given (.ofInt c.issuedAt.toInt), .given (.ofInt c.expires.toInt),
      .given (.ofString c.nonce), .given (.ofString c.scope)] := by
    simp [slots, fields, toTree, tree, slotsOfMembers, membersAt]
  simp only [ofTree, hslots, Slot.required, int64?_ofInt, Option.bind_eq_bind, Option.bind_some]
  rfl

end Claims

namespace Token

theorem splitLast_eq_none_iff {cs : List Char} : splitLast cs = none ↔ '.' ∉ cs := by
  induction cs with
  | nil => simp [splitLast]
  | cons c cs ih =>
      unfold splitLast
      cases hrest : splitLast cs with
      | none =>
          have hcs := ih.mp hrest
          by_cases hc : c = '.' <;> simp [hc, hcs, eq_comm]
      | some parts =>
          have hcs : '.' ∈ cs := Decidable.not_not.mp fun hdot => by
            rw [ih.mpr hdot] at hrest
            cases hrest
          simp [hcs]

theorem splitLast_append {before after : List Char} (h : '.' ∉ after) :
    splitLast (before ++ '.' :: after) = some (before, after) := by
  induction before with
  | nil => simp [splitLast, splitLast_eq_none_iff.mpr h]
  | cons c before ih => simp [splitLast, ih]

theorem treeOfSegment_segment {t : Tree} (h : t.IsPlain) :
    treeOfSegment (segment t) = .ok t := by
  simp [treeOfSegment, segment, Base64Url.decode?_encode, ofUtf8?_utf8, Tree.parse_text h]

theorem headerAlgorithm_header : headerAlgorithm header = some "HS256" := by
  decide +kernel

theorem checkClaims_toTree {c : Claims} {now : Int} (since : leeway ≤ now)
    (lasts : now - leeway ≤ c.expires.toInt) : checkClaims now c.toTree = .ok () := by
  have hslots : slots ["exp", "nbf", "sub", "iss", "aud"] c.toTree = some
      [.given (.ofInt c.expires.toInt), .absent, .given (.ofString c.subject), .absent,
        .absent] := by
    simp [slots, Claims.toTree, tree, slotsOfMembers, membersAt]
  simp only [checkClaims, hslots, Tree.ofInt, Tree.ofString, isSkippable, Bool.not_true,
    Bool.false_eq_true, if_false]
  rw [if_neg (by omega), if_neg (by omega)]

/-- The token of claims is accepted as long as it has not expired. -/
theorem verify_ofClaims {secret : String} {c : Claims} {now : Int} (scope : c.scope = proxyScope)
    (since : leeway ≤ now) (lasts : now - leeway ≤ c.expires.toInt) :
    verify secret now (ofClaims secret c) = .ok c := by
  have hsign : splitLast (ofClaims secret c).toList =
      some (segment header ++ '.' :: segment c.toTree,
        sign secret (segment header ++ '.' :: segment c.toTree)) := by
    rw [ofClaims, String.toList_ofList]
    exact splitLast_append (Base64Url.dot_notMem_encode _)
  have hmessage : splitLast (segment header ++ '.' :: segment c.toTree) =
      some (segment header, segment c.toTree) := splitLast_append (Base64Url.dot_notMem_encode _)
  have hheader : treeOfSegment (segment header) = .ok header :=
    treeOfSegment_segment ⟨rfl, rfl, rfl, rfl, trivial⟩
  simp [verify, hsign, hmessage, hheader, headerAlgorithm_header, bind, Except.bind,
    treeOfSegment_segment c.isPlain_toTree, c.ofTree_toTree, checkClaims_toTree since lasts, scope]

end Token

namespace InstanceEnv

/-- The variables for an instance have a token for its session. -/
theorem get?_tokenVar {fixed vars : Vars} {proxy : Proxy} {session : SessionId} {now : Int64}
    {nonce : String}
    (h : (InstanceEnv.vars fixed (some proxy)).forSession session now nonce = .ok vars) :
    vars.get? tokenVar = some (Token.mint proxy.secret session proxy.ttlSecs now nonce) := by
  rw [← Except.ok.inj h]
  exact Json.lookup_insert ..

end InstanceEnv

end PreviewDeploy

import PreviewDeploy.Proofs.MintedTokens
import PreviewDeploy.Proofs.StoredStates

/-!
# Accepted tokens

What is accepted as a token, and what is minted (`Token.verify_spec`).  A minted token is accepted,
under the secret that it was signed with, from its minting until `leeway` seconds after it has
expired.  And nothing is accepted but three segments, the third of which signs the other two under
the secret, with a header that names HS256 and claims that have not long expired and are for the
proxy (`Token.Accepted`).
-/

namespace PreviewDeploy

open Json (Slot Tree)
open Json.Record (membersAt slots slotsOfItems slotsOfMembers)

/-! ### Segments -/

namespace Base64Url

theorem dot_notMem_of_decode? {cs : List Char} {bytes : List UInt8} (h : decode? cs = some bytes) :
    '.' ∉ cs := by
  have hdot {c : Char} {n : Nat} (hc : value? c = some n) : '.' ≠ c := by
    rintro rfl
    have hnone : value? '.' = none := by decide
    rw [hnone] at hc
    cases hc
  induction cs using decode?.induct generalizing bytes with
  | case1 => exact List.not_mem_nil
  | case2 => cases h
  | case3 a b =>
      obtain ⟨x, hx, h⟩ := Option.bind_eq_some_iff.mp h
      obtain ⟨y, hy, -⟩ := Option.bind_eq_some_iff.mp h
      simp [hdot hx, hdot hy]
  | case4 a b c =>
      obtain ⟨x, hx, h⟩ := Option.bind_eq_some_iff.mp h
      obtain ⟨y, hy, h⟩ := Option.bind_eq_some_iff.mp h
      obtain ⟨z, hz, -⟩ := Option.bind_eq_some_iff.mp h
      simp [hdot hx, hdot hy, hdot hz]
  | case5 a b c d rest ih =>
      obtain ⟨x, hx, h⟩ := Option.bind_eq_some_iff.mp h
      obtain ⟨y, hy, h⟩ := Option.bind_eq_some_iff.mp h
      obtain ⟨z, hz, h⟩ := Option.bind_eq_some_iff.mp h
      obtain ⟨w, hw, h⟩ := Option.bind_eq_some_iff.mp h
      obtain ⟨bytes, hbytes, -⟩ := Option.bind_eq_some_iff.mp h
      simp [hdot hx, hdot hy, hdot hz, hdot hw, ih hbytes]

end Base64Url

namespace Token

theorem eq_of_splitLast {cs before after : List Char} (h : splitLast cs = some (before, after)) :
    cs = before ++ '.' :: after ∧ '.' ∉ after := by
  induction cs generalizing before with
  | nil => cases h
  | cons c cs ih =>
      unfold splitLast at h
      split at h
      · rename_i front back hrest
        cases h
        obtain ⟨rfl, hback⟩ := ih hrest
        exact ⟨rfl, hback⟩
      · rename_i hrest
        split at h
        · rename_i hc
          cases h
          exact ⟨by rw [hc, List.nil_append], splitLast_eq_none_iff.mp hrest⟩
        · cases h

theorem segments_of_verify {secret token : String} {now : Int} {c : Claims}
    (h : verify secret now token = .ok c) :
    ∃ head payload header body,
      token.toList = head ++ '.' :: payload ++ '.' :: sign secret (head ++ '.' :: payload) ∧
      treeOfSegment head = .ok header ∧ headerAlgorithm header = some "HS256" ∧
      '.' ∉ payload ∧ treeOfSegment payload = .ok body ∧ Claims.ofTree body = some c ∧
      checkClaims now body = .ok () ∧ c.scope = proxyScope := by
  -- Each guard of `verify` is passed, in its order.
  unfold verify at h
  split at h
  case h_2 => cases h
  rename_i message signature hsignature
  split at h
  case h_2 => cases h
  rename_i head payload hmessage
  obtain ⟨header, hhead, h⟩ := Store.bind_eq_ok.mp h
  split at h
  case h_2 => cases h
  rename_i alg halg
  split at h
  · cases h
  rename_i hHS256
  split at h
  · cases h
  rename_i hsigned
  obtain ⟨body, hpayload, h⟩ := Store.bind_eq_ok.mp h
  split at h
  case h_2 => cases h
  rename_i c' hclaims
  obtain ⟨⟨⟩, hcheck, h⟩ := Store.bind_eq_ok.mp h
  split at h
  · cases h
  rename_i hscope
  obtain rfl := Except.ok.inj h
  obtain ⟨htoken, -⟩ := eq_of_splitLast hsignature
  obtain ⟨rfl, hdot⟩ := eq_of_splitLast hmessage
  obtain rfl := Decidable.not_not.mp hHS256
  obtain rfl := Decidable.not_not.mp hsigned
  exact ⟨head, payload, header, body, htoken, hhead, halg, hdot, hpayload, hclaims, hcheck,
    Decidable.not_not.mp hscope⟩

end Token

/-! ### Claims -/

theorem Json.Tree.eq_of_string? {t : Tree} {text : String} (h : t.string? = some text) :
    t = .ofString text := by
  cases t with
  | string s => exact congrArg Tree.string h
  | _ => cases h

theorem Json.Tree.eq_of_int64? {t : Tree} {n : Int64} (h : t.int64? = some n) :
    t = .ofInt n.toInt := by
  obtain ⟨i, hi, rfl⟩ := Option.map_eq_some_iff.mp h
  unfold Tree.intBetween? at hi
  split at hi
  · split at hi
    · rename_i hrange
      cases hi
      have hbound : int64Bound = 9223372036854775808 := rfl
      rw [Tree.ofInt, Int64.toInt_ofInt_of_le (by omega) (by omega)]
    · cases hi
  · cases hi

namespace Json.Record

/-- A field that an object holds is its only member of that key. -/
theorem membersAt_of_slots {members : List (Option String × Tree)} {key : String}
    {keys : List String} {slot : Slot} {found : List Slot}
    (h : slotsOfMembers members (key :: keys) = some (slot :: found)) :
    (∀ t, slot = .given t → membersAt key members = [t]) ∧
      slotsOfMembers members keys = some found := by
  unfold slotsOfMembers at h
  split at h
  · obtain ⟨_, hfound, heq⟩ := Option.map_eq_some_iff.mp h
    cases heq
    exact ⟨nofun, hfound⟩
  · rename_i hone
    obtain ⟨_, hfound, heq⟩ := Option.map_eq_some_iff.mp h
    cases heq
    exact ⟨fun t ht => Slot.given.inj ht ▸ hone, hfound⟩
  · cases h

/-- An array that holds every field has nothing else. -/
theorem items_of_given {keys : List String} {items ts : List Tree}
    (h : slotsOfItems keys items = some (ts.map .given)) : items = ts := by
  induction keys generalizing items ts with
  | nil =>
      cases items with
      | nil =>
          have hts : ts.map Slot.given = [] := (Option.some.inj h).symm
          exact (List.map_eq_nil_iff.mp hts).symm
      | cons _ _ => cases h
  | cons key keys ih =>
      cases items with
      | nil =>
          obtain ⟨found, -, heq⟩ := Option.map_eq_some_iff.mp h
          cases ts <;> cases heq
      | cons t items =>
          obtain ⟨found, hfound, heq⟩ := Option.map_eq_some_iff.mp h
          cases ts with
          | nil => cases heq
          | cons t' ts =>
              obtain ⟨ht, rfl⟩ := List.cons.inj heq
              rw [Slot.given.inj ht, ih hfound]

end Json.Record

theorem Json.Slot.given_of_required {α : Type} {read : Tree → Option α} {slot : Slot} {a : α}
    (h : slot.required read = some a) : ∃ t, slot = .given t ∧ read t = some a := by
  cases slot with
  | given t => exact ⟨t, rfl, h⟩
  | _ => cases h

namespace Claims

variable {c : Claims} {t : Tree}

/-- The tree is an object that has each claim once. -/
def IsSaidBy (c : Claims) (t : Tree) : Prop :=
  ∃ members, t = .object members ∧
    membersAt "sub" members = [.ofString c.subject] ∧
    membersAt "iat" members = [.ofInt c.issuedAt.toInt] ∧
    membersAt "exp" members = [.ofInt c.expires.toInt] ∧
    membersAt "jti" members = [.ofString c.nonce] ∧
    membersAt "scope" members = [.ofString c.scope]

theorem slots_of_ofTree (h : ofTree t = some c) : slots fields t =
    some [.given (.ofString c.subject), .given (.ofInt c.issuedAt.toInt),
      .given (.ofInt c.expires.toInt), .given (.ofString c.nonce), .given (.ofString c.scope)] := by
  unfold ofTree at h
  split at h
  case h_2 => cases h
  rename_i hslots
  rw [hslots]
  obtain ⟨subject, h₁, h⟩ := Option.bind_eq_some_iff.mp h
  obtain ⟨issuedAt, h₂, h⟩ := Option.bind_eq_some_iff.mp h
  obtain ⟨expires, h₃, h⟩ := Option.bind_eq_some_iff.mp h
  obtain ⟨nonce, h₄, h⟩ := Option.bind_eq_some_iff.mp h
  obtain ⟨scope, h₅, h⟩ := Option.bind_eq_some_iff.mp h
  cases h
  obtain ⟨_, rfl, h₁⟩ := Slot.given_of_required h₁
  obtain ⟨_, rfl, h₂⟩ := Slot.given_of_required h₂
  obtain ⟨_, rfl, h₃⟩ := Slot.given_of_required h₃
  obtain ⟨_, rfl, h₄⟩ := Slot.given_of_required h₄
  obtain ⟨_, rfl, h₅⟩ := Slot.given_of_required h₅
  rw [Tree.eq_of_string? h₁, Tree.eq_of_int64? h₂, Tree.eq_of_int64? h₃, Tree.eq_of_string? h₄,
    Tree.eq_of_string? h₅]

/-- Claims are read from an object, or from an array of their values. -/
theorem isSaidBy_or_of_ofTree (h : ofTree t = some c) :
    c.IsSaidBy t ∨ t = .array [.ofString c.subject, .ofInt c.issuedAt.toInt,
      .ofInt c.expires.toInt, .ofString c.nonce, .ofString c.scope] := by
  have hslots := slots_of_ofTree h
  cases t with
  | object members =>
      simp only [slots] at hslots
      split at hslots
      case isFalse => cases hslots
      obtain ⟨hsub, hslots⟩ := Json.Record.membersAt_of_slots hslots
      obtain ⟨hiat, hslots⟩ := Json.Record.membersAt_of_slots hslots
      obtain ⟨hexp, hslots⟩ := Json.Record.membersAt_of_slots hslots
      obtain ⟨hjti, hslots⟩ := Json.Record.membersAt_of_slots hslots
      obtain ⟨hscope, -⟩ := Json.Record.membersAt_of_slots hslots
      exact .inl ⟨members, rfl, hsub _ rfl, hiat _ rfl, hexp _ rfl, hjti _ rfl, hscope _ rfl⟩
  | array items => exact .inr (congrArg Tree.array (Json.Record.items_of_given hslots))
  | _ => cases hslots

/-- Claims that are in order say when they expire, and it is not long ago. -/
theorem isSaidBy_of_check {now : Int} (h : ofTree t = some c)
    (hcheck : Token.checkClaims now t = .ok ()) :
    c.IsSaidBy t ∧ now - Token.leeway ≤ c.expires.toInt := by
  unfold Token.checkClaims at hcheck
  rcases isSaidBy_or_of_ofTree h with hsaid | rfl
  · refine ⟨hsaid, ?_⟩
    obtain ⟨members, rfl, -, -, hexp, -, -⟩ := hsaid
    split at hcheck
    case h_2 => cases hcheck
    rename_i expires notBefore subject _ audience hslots
    have hgiven : expires = .given (.ofInt c.expires.toInt) := by
      simp only [slots, slotsOfMembers, hexp] at hslots
      split at hslots
      · obtain ⟨_, -, heq⟩ := Option.map_eq_some_iff.mp hslots
        exact (List.cons.inj heq).1.symm
      · cases hslots
    subst hgiven
    simp only [Tree.ofInt] at hcheck
    split at hcheck
    case isTrue => cases hcheck
    split at hcheck
    case isTrue => cases hcheck
    split at hcheck
    case h_2 => cases hcheck
    split at hcheck
    case isTrue => cases hcheck
    rename_i hlasts
    omega
  · -- The first item of the array is the subject, and no time.
    cases hcheck

end Claims

namespace Token

variable {secret token : String} {now : Int} {c : Claims}

/-! ### Headers -/

/-- What a header holds for its algorithm: the members of its key, or the second item. -/
def algorithms : Tree → List Tree
  | .object members => membersAt "alg" members
  | .array (_ :: t :: _) => [t]
  | _ => []

theorem algorithms_of_headerAlgorithm {t : Tree} {alg : String}
    (h : headerAlgorithm t = some alg) :
    ∃ a, algorithms t = [a] ∧ Key.name? Key.signatures a = some alg := by
  unfold headerAlgorithm at h
  split at h
  case h_2 => cases h
  rename_i typ found _ _ _ _ _ _ _ _ hslots
  obtain ⟨_, -, h⟩ := Option.bind_eq_some_iff.mp h
  obtain ⟨alg', hfound, h⟩ := Option.bind_eq_some_iff.mp h
  have heq : alg' = alg := by
    simp only [Option.bind_eq_bind, Option.bind_eq_some_iff] at h
    obtain ⟨_, -, _, -, _, -, _, -, _, -, _, -, _, -, _, -, h⟩ := h
    exact Option.some.inj h
  obtain ⟨a, rfl, ha⟩ := Slot.given_of_required hfound
  refine ⟨a, ?_, heq ▸ ha⟩
  cases t with
  | object members =>
      simp only [slots] at hslots
      split at hslots
      case isFalse => cases hslots
      obtain ⟨-, hslots⟩ := Json.Record.membersAt_of_slots hslots
      exact (Json.Record.membersAt_of_slots hslots).1 _ rfl
  | array items =>
      rcases items with _ | ⟨first, _ | ⟨second, items⟩⟩
      · cases hslots
      · cases hslots
      · obtain ⟨_, hrest, heq⟩ := Option.map_eq_some_iff.mp hslots
        cases heq
        obtain ⟨_, -, heq⟩ := Option.map_eq_some_iff.mp hrest
        cases heq
        rfl
  | _ => cases hslots

/-! ### Accepted tokens -/

/-- What an accepted token is: three segments between dots, of which the third signs the others, the
first holds a header with HS256 for its algorithm, and the second holds the claims, which are for
the proxy and have not expired for longer than the leeway. -/
def Accepted (secret : String) (now : Int) (token : String) (c : Claims) : Prop :=
  ∃ head payload header body,
    token.toList.splitOn '.' = [head, payload, sign secret (head ++ '.' :: payload)] ∧
    treeOfSegment head = .ok header ∧ treeOfSegment payload = .ok body ∧
    (∃ a, algorithms header = [a] ∧ Key.name? Key.signatures a = some "HS256") ∧
    c.IsSaidBy body ∧ now - leeway ≤ c.expires.toInt ∧ c.scope = proxyScope

theorem dot_notMem_of_segment {cs : List Char} {t : Tree} (h : treeOfSegment cs = .ok t) :
    '.' ∉ cs := by
  unfold treeOfSegment at h
  split at h
  · cases h
  · rename_i hdecode
    exact Base64Url.dot_notMem_of_decode? hdecode

theorem dot_notMem_sign (secret : String) (message : List Char) : '.' ∉ sign secret message :=
  Base64Url.dot_notMem_encode _

theorem accepted_of_verify (h : verify secret now token = .ok c) :
    Accepted secret now token c := by
  obtain ⟨head, payload, header, body, htoken, hhead, halg, hdot, hpayload, hclaims, hcheck,
    hscope⟩ := segments_of_verify h
  obtain ⟨hsaid, hlasts⟩ := Claims.isSaidBy_of_check hclaims hcheck
  refine ⟨head, payload, header, body, ?_, hhead, hpayload, algorithms_of_headerAlgorithm halg,
    hsaid, hlasts, hscope⟩
  rw [htoken, List.splitOn_append_cons_self, List.splitOn_append_cons_self,
    List.splitOn_eq_singleton (dot_notMem_of_segment hhead), List.splitOn_eq_singleton hdot,
    List.splitOn_eq_singleton (dot_notMem_sign secret _)]
  rfl

/-! ### Minted tokens -/

/-- A token expires when its time is over, but not after the last time that there is. -/
theorem expires_claims {session : SessionId} {ttlSecs : UInt64} {now : Int64} {nonce : String}
    (h : 0 ≤ now.toInt) : (claims session ttlSecs now nonce).expires.toInt =
      min (now.toInt + ttlSecs.toNat) maxInt64 := by
  have hbound : int64Bound = 9223372036854775808 := rfl
  unfold claims maxInt64
  rw [Int64.toInt_ofInt_of_le (by omega) (by omega)]
  omega

/-- Minted tokens are accepted until they have expired for longer than the leeway, and say their
claims; whatever is accepted is signed, names HS256, has not expired and is for the proxy. -/
theorem verify_spec (secret : String) :
    (∀ (session : SessionId) (ttlSecs : UInt64) (minted : Int64) (nonce : String) (now : Int),
      leeway ≤ minted.toInt → minted.toInt ≤ now →
      now ≤ min (minted.toInt + ttlSecs.toNat) maxInt64 + leeway →
      ∃ expires : Int64, expires.toInt = min (minted.toInt + ttlSecs.toNat) maxInt64 ∧
        verify secret now (mint secret session ttlSecs minted nonce) =
          .ok ⟨session.text, minted, expires, nonce, proxyScope⟩) ∧
    (∀ now token c, verify secret now token = .ok c → Accepted secret now token c) ∧
    ∀ now token, (¬ ∃ c, Accepted secret now token c) →
      ∃ flaw, verify secret now token = .error flaw := by
  refine ⟨?_, fun now token c => accepted_of_verify, ?_⟩
  · intro session ttlSecs minted nonce now hminted hsince huntil
    have hleeway : leeway = 60 := rfl
    have hexpires : (claims session ttlSecs minted nonce).expires.toInt = _ :=
      expires_claims (by omega)
    exact ⟨_, hexpires, verify_ofClaims rfl (by omega) (by omega)⟩
  · intro now token h
    cases hverify : verify secret now token with
    | ok c => exact absurd ⟨c, accepted_of_verify hverify⟩ h
    | error flaw => exact ⟨flaw, rfl⟩

/-- A minted token at the last moment at which it is accepted, and a text that is no token. -/
theorem verify_spec_of_lastMoment :
    (∃ expires : Int64, expires.toInt = 1700003600 ∧
      verify "s3cret" 1700003660 (mint "s3cret" ⟨"sess_1"⟩ 3600 1700000000 "nonce") =
        .ok ⟨"sess_1", 1700000000, expires, "nonce", proxyScope⟩ ∧
      Accepted "s3cret" 1700003660 (mint "s3cret" ⟨"sess_1"⟩ 3600 1700000000 "nonce")
        ⟨"sess_1", 1700000000, expires, "nonce", proxyScope⟩) ∧
    ∃ flaw, verify "s3cret" 1700003660 "" = .error flaw := by
  obtain ⟨minted, accepted, refused⟩ := verify_spec "s3cret"
  obtain ⟨expires, hexpires, hverify⟩ :=
    minted ⟨"sess_1"⟩ 3600 1700000000 "nonce" 1700003660 (by decide) (by decide) (by decide)
  refine ⟨⟨expires, hexpires, hverify, accepted _ _ _ hverify⟩, refused _ _ ?_⟩
  rintro ⟨c, head, payload, header, body, hsegments, -⟩
  cases hsegments

end Token

end PreviewDeploy

import Mathlib.Data.List.Forall2
import PreviewDeploy.Transaction

/-!
# Failures that say that a session is lost

A pattern is matched as it is denoted: it stands in a text exactly if one of its words does
(`Signature.Pattern.occursIn_iff`), and folding is what simple case folding asks for
(`Signature.fold_eq_iff`).  So a text says that a session is lost exactly if one of
`Signature.phrases` stands in it, whatever the case.

The messages of failures put words of their own in front of what comes from outside.  None of these
fronts contains the beginning of a phrase that could go on behind it (`Signature.IsInert`), so a
failure is fatal exactly if its payload says that the session is lost.
-/

namespace PreviewDeploy

open ControlPlane (Fault WriteResponse WriteResult)

namespace Signature

namespace Pattern

theorem dropWord_eq_some_iff {word text rest : List Char} :
    dropWord word text = some rest ↔ text = word ++ rest := by
  induction word generalizing text with
  | nil => simp [dropWord]
  | cons c word ih =>
      cases text with
      | nil => simp [dropWord]
      | cons d text =>
          rw [dropWord]
          split
          · rename_i hcd
            simp [ih, hcd]
          · rename_i hcd
            simp [Ne.symm hcd]

/-- What can be left of a text is what comes after a word at its front. -/
theorem mem_rests_iff {p : Pattern} {text rest : List Char} :
    rest ∈ p.rests text ↔ ∃ word ∈ p.words, text = word ++ rest := by
  induction p generalizing text rest with
  | word cs => simp [rests, words, dropWord_eq_some_iff]
  | seq p q ihp ihq =>
      simp only [rests, words, List.mem_flatMap, List.mem_map, ihp, ihq]
      constructor
      · rintro ⟨-, ⟨u, hu, rfl⟩, v, hv, rfl⟩
        exact ⟨u ++ v, ⟨u, hu, v, hv, rfl⟩, by rw [List.append_assoc]⟩
      · rintro ⟨-, ⟨u, hu, v, hv, rfl⟩, rfl⟩
        exact ⟨v ++ rest, ⟨u, hu, by rw [List.append_assoc]⟩, v, hv, rfl⟩
  | either p q ihp ihq =>
      simp only [rests, words, List.mem_append, ihp, ihq, or_and_right, exists_or]
  | optional p ih =>
      simp only [rests, words, List.mem_append, List.mem_singleton, ih, or_and_right, exists_or,
        exists_eq_left, List.nil_append, eq_comm]

theorem rests_ne_nil_iff {p : Pattern} {text : List Char} :
    (!(p.rests text).isEmpty) = true ↔ ∃ word ∈ p.words, word <+: text := by
  rw [Bool.not_eq_true', List.isEmpty_eq_false_iff]
  constructor
  · intro h
    obtain ⟨rest, hrest⟩ := List.exists_mem_of_ne_nil _ h
    obtain ⟨word, hword, htext⟩ := mem_rests_iff.mp hrest
    exact ⟨word, hword, rest, htext.symm⟩
  · rintro ⟨word, hword, rest, htext⟩
    exact List.ne_nil_of_mem (mem_rests_iff.mpr ⟨word, hword, htext.symm⟩)

theorem occursIn_iff {p : Pattern} {text : List Char} :
    p.occursIn text = true ↔ ∃ word ∈ p.words, word <:+: text := by
  induction text with
  | nil => simp only [occursIn, rests_ne_nil_iff, List.prefix_nil, List.infix_nil]
  | cons c text ih =>
      simp only [occursIn, Bool.or_eq_true, rests_ne_nil_iff, ih, List.infix_cons_iff, and_or_left,
        exists_or]

end Pattern

open Pattern

/-! ### Phrases -/

/-- The phrases of which each says that a session is lost. -/
def phrases : List String :=
  ["network connection lost",
    "container service disconnected", "container service is not running",
    "container disconnected", "container is not running",
    "runtime service disconnected", "runtime service is not running",
    "runtime disconnected", "runtime is not running",
    "durable object storage", "durable object reset",
    "storage operation failed", "storage operation fault", "storage failed", "storage fault",
    "internal error in storage"]

theorem words_lostSession : lostSession.words = phrases.map String.toList := by decide +kernel

/-- A character equals an ASCII character that is no capital letter up to simple case folding: it is
the same, its capital letter, or one of the two other characters that fold to an ASCII letter. -/
inductive IsForm (c : Char) : Char → Prop
  | same : IsForm c c
  | capital {x : Char} (capital : 'A' ≤ x ∧ x ≤ 'Z') (small : c.toNat = x.toNat + 32) : IsForm c x
  | longS (letter : c = 's') : IsForm c 'ſ'
  | kelvin (letter : c = 'k') : IsForm c '\u212a'

/-- A phrase stands somewhere in a text, up to simple case folding. -/
def Says (text phrase : String) : Prop :=
  ∃ front form back, text.toList = front ++ form ++ back ∧ List.Forall₂ IsForm phrase.toList form

theorem toNat_ofNat_of_ascii {n : Nat} (h : n < 128) : (Char.ofNat n).toNat = n := by
  have all : ∀ n : Fin 128, (Char.ofNat n).toNat = n := by decide
  exact all ⟨n, h⟩

/-- Folding gives the character that a character equals up to simple case folding. -/
theorem fold_eq_iff {c x : Char} (hc : fold c = c) : fold x = c ↔ IsForm c x := by
  constructor
  · intro h
    unfold fold at h
    split at h
    · rename_i hcapital
      have hx : x.toNat ≤ 'Z'.toNat := hcapital.2
      refine .capital hcapital ?_
      have hlt : x.toNat + 32 < 128 := Nat.lt_of_le_of_lt (Nat.add_le_add_right hx 32) (by decide)
      rw [← h, toNat_ofNat_of_ascii hlt]
    · split at h
      · rename_i hs
        exact hs ▸ .longS h.symm
      · split at h
        · rename_i hk
          exact hk ▸ .kelvin h.symm
        · exact h ▸ .same
  · rintro (_ | ⟨hcapital, hsmall⟩ | rfl | rfl)
    · exact hc
    · rw [fold, if_pos hcapital, ← hsmall, Char.ofNat_toNat]
    · decide
    · decide

theorem fold_of_mem_phrase {phrase : String} {c : Char} (hphrase : phrase ∈ phrases)
    (hc : c ∈ phrase.toList) : fold c = c := by
  have all : phrases.all (fun phrase => phrase.toList.all fun c => fold c = c) = true := by
    decide +kernel
  exact of_decide_eq_true (List.all_eq_true.mp (List.all_eq_true.mp all phrase hphrase) c hc)

/-- A text folds to a phrase exactly if it is the phrase up to simple case folding. -/
theorem map_fold_eq_iff {word form : List Char} (hword : ∀ c ∈ word, fold c = c) :
    word = form.map fold ↔ List.Forall₂ IsForm word form := by
  induction word generalizing form with
  | nil => cases form <;> simp
  | cons c word ih =>
      obtain ⟨hc, hword⟩ := List.forall_mem_cons.mp hword
      cases form with
      | nil => simp
      | cons x form =>
          rw [List.map_cons, List.cons.injEq, List.forall₂_cons, ← fold_eq_iff hc, ih hword,
            eq_comm]

theorem infix_map_fold_iff {text phrase : String} (hphrase : phrase ∈ phrases) :
    phrase.toList <:+: text.toList.map fold ↔ Says text phrase := by
  have hfold : ∀ c ∈ phrase.toList, fold c = c := fun c => fold_of_mem_phrase hphrase
  rw [List.infix_map_iff]
  constructor
  · rintro ⟨form, ⟨front, back, htext⟩, hform⟩
    exact ⟨front, form, back, htext.symm, (map_fold_eq_iff hfold).mp hform⟩
  · rintro ⟨front, form, back, htext, hform⟩
    exact ⟨form, ⟨front, back, htext.symm⟩, (map_fold_eq_iff hfold).mpr hform⟩

theorem saysLost_eq_true_iff {text : String} : saysLost text = true ↔
    ∃ word ∈ lostSession.words, word <:+: text.toList.map fold :=
  occursIn_iff

theorem saysLost_iff {text : String} :
    saysLost text = true ↔ ∃ phrase ∈ phrases, Says text phrase := by
  rw [saysLost_eq_true_iff, words_lostSession]
  constructor
  · rintro ⟨word, hword, hpart⟩
    obtain ⟨phrase, hphrase, rfl⟩ := List.mem_map.mp hword
    exact ⟨phrase, hphrase, (infix_map_fold_iff hphrase).mp hpart⟩
  · rintro ⟨phrase, hphrase, hsaid⟩
    exact ⟨_, List.mem_map_of_mem hphrase, (infix_map_fold_iff hphrase).mpr hsaid⟩

theorem Says.of_isInfix {part text phrase : String} (h : Says part phrase)
    (hpart : part.toList <:+: text.toList) : Says text phrase := by
  obtain ⟨front, form, back, hform, hall⟩ := h
  obtain ⟨before, after, htext⟩ := hpart
  refine ⟨before ++ front, form, back ++ after, ?_, hall⟩
  rw [← htext, hform]
  simp only [List.append_assoc]

/-! ### Fronts -/

/-- No phrase begins in the text, whatever comes after it. -/
def IsInert (front : String) : Prop :=
  ∀ word ∈ lostSession.words, ∀ rest, word <:+: front.toList.map fold ++ rest → word <:+: rest

/-- Of no end of the text a phrase is a beginning, nor the other way round. -/
def isClear : List Char → Bool
  | [] => true
  | c :: front =>
    lostSession.words.all (fun word => !word.isPrefixOf (c :: front) &&
      !(c :: front).isPrefixOf word) && isClear front

theorem isInert_of_isClear {front : String} (h : isClear (front.toList.map fold) = true) :
    IsInert front := by
  intro word hword rest
  generalize front.toList.map fold = cs at h
  induction cs with
  | nil => exact id
  | cons c cs ih =>
      simp only [isClear, Bool.and_eq_true, List.all_eq_true, Bool.not_eq_true',
        ← Bool.not_eq_true, List.isPrefixOf_iff_prefix] at h
      obtain ⟨hclear, h⟩ := h
      obtain ⟨hin, hover⟩ := hclear word hword
      rw [List.cons_append, List.infix_cons_iff]
      rintro (hpre | hpart)
      · -- A phrase at the front of the text and what follows is comparable to the text.
        have hcs : c :: cs <+: c :: (cs ++ rest) := List.prefix_append (c :: cs) rest
        exact ((List.prefix_or_prefix_of_prefix hpre hcs).elim hin hover).elim
      · exact ih h hpart

theorem IsInert.append {a b : String} (ha : IsInert a) (hb : IsInert b) : IsInert (a ++ b) := by
  intro word hword rest h
  rw [String.toList_append, List.map_append, List.append_assoc] at h
  exact hb word hword rest (ha word hword _ h)

/-- An inert front neither creates nor hides a phrase. -/
theorem IsInert.saysLost_append {front : String} (h : IsInert front) (text : String) :
    saysLost (front ++ text) = saysLost text := by
  rw [Bool.eq_iff_iff, saysLost_eq_true_iff, saysLost_eq_true_iff, String.toList_append,
    List.map_append]
  constructor
  · rintro ⟨word, hword, hpart⟩
    exact ⟨word, hword, h word hword _ hpart⟩
  · rintro ⟨word, hword, hpart⟩
    exact ⟨word, hword, hpart.trans (List.suffix_append _ _).isInfix⟩

theorem exists_head_of_mem_words {word : List Char} (h : word ∈ lostSession.words) :
    ∃ c cs, word = c :: cs ∧ c.isDigit = false := by
  have all : ∀ word ∈ lostSession.words, word.head?.any (!·.isDigit) = true := by decide +kernel
  have hword := all word h
  cases word with
  | nil => cases hword
  | cons c cs => exact ⟨c, cs, rfl, by simpa using hword⟩

theorem isClear_of_isDigit {cs : List Char} (h : ∀ c ∈ cs, c.isDigit) : isClear cs = true := by
  induction cs with
  | nil => rfl
  | cons c cs ih =>
      obtain ⟨hc, hcs⟩ := List.forall_mem_cons.mp h
      rw [isClear, ih hcs, Bool.and_true, List.all_eq_true]
      intro word hword
      obtain ⟨d, ds, rfl, hd⟩ := exists_head_of_mem_words hword
      have hne : d ≠ c := fun heq => by simp [heq, hc] at hd
      simp [List.isPrefixOf, hne, Ne.symm hne]

theorem fold_of_isDigit {c : Char} (h : c.isDigit) : fold c = c := by
  simp only [Char.isDigit, Bool.and_eq_true, decide_eq_true_eq] at h
  have hcapital : ¬ ('A' ≤ c ∧ c ≤ 'Z') := fun hA => absurd (Char.le_trans hA.1 h.2) (by decide)
  have hs : c ≠ 'ſ' := by
    rintro rfl
    exact absurd h.2 (by decide)
  have hk : c ≠ '\u212a' := by
    rintro rfl
    exact absurd h.2 (by decide)
  rw [fold, if_neg hcapital, if_neg hs, if_neg hk]

theorem isInert_toString (n : Nat) : IsInert (toString n) := by
  have hdigits : ∀ c ∈ (toString n).toList, c.isDigit := by
    rw [Nat.toString_eq_repr, Nat.toList_repr]
    exact fun c => Nat.isDigit_of_mem_toDigits (by decide) (by decide)
  have hfold : (toString n).toList.map fold = (toString n).toList :=
    (List.map_congr_left fun c hc => fold_of_isDigit (hdigits c hc)).trans (List.map_id _)
  refine isInert_of_isClear ?_
  rw [hfold]
  exact isClear_of_isDigit hdigits

/-- Every phrase has a blank, so it needs one to stand in. -/
theorem saysLost_of_blank_notMem {text : String} (h : ' ' ∉ text.toList) :
    saysLost text = false := by
  have hwords : ∀ word ∈ lostSession.words, ' ' ∈ word := by decide +kernel
  rw [← Bool.not_eq_true, saysLost_eq_true_iff]
  rintro ⟨word, hword, hpart⟩
  obtain ⟨x, hx, hblank⟩ := List.mem_map.mp (hpart.subset (hwords word hword))
  cases (fold_eq_iff (by decide)).mp hblank with
  | same => exact h hx
  | capital hcapital hsmall =>
      have hA : 65 ≤ x.toNat := hcapital.1
      have hblank : ' '.toNat = 32 := rfl
      omega
  | longS hs => exact absurd hs (by decide)
  | kelvin hk => exact absurd hk (by decide)

end Signature

/-! ### Texts of durations -/

namespace Duration

theorem blank_notMem_toString (n : Nat) : ' ' ∉ (toString n).toList := by
  rw [Nat.toString_eq_repr, Nat.toList_repr]
  exact fun h => absurd (Nat.isDigit_of_mem_toDigits (by decide) (by decide) h) (by decide)

theorem blank_notMem_fractionDigits (places value : Nat) : ' ' ∉ fractionDigits places value := by
  intro h
  rw [fractionDigits, List.mem_reverse] at h
  have hdigits := List.mem_of_mem_drop (List.mem_reverse.mp ((List.dropWhile_sublist _).subset h))
  exact absurd (Nat.isDigit_of_mem_toDigits (by decide) (by decide) hdigits) (by decide)

theorem blank_notMem_textIn {places nanos : Nat} {unit : String} (hunit : ' ' ∉ unit.toList) :
    ' ' ∉ (textIn places unit nanos).toList := by
  have hwhole := blank_notMem_toString (nanos / Nat.pow 10 places)
  have hfraction := blank_notMem_fractionDigits places (nanos % Nat.pow 10 places)
  have hpoint : ' ' ∉ ".".toList := by decide
  unfold textIn
  simp only
  split
  · simp only [String.toList_append, List.mem_append, hwhole, hunit, or_self, not_false_iff]
  · simp only [String.toList_append, String.toList_ofList, List.mem_append, hwhole, hpoint,
      hfraction, hunit, or_self, not_false_iff]

theorem blank_notMem_text (d : Duration) : ' ' ∉ d.text.toList := by
  unfold text
  split
  · exact blank_notMem_textIn (by decide)
  · split
    · exact blank_notMem_textIn (by decide)
    · split
      · exact blank_notMem_textIn (by decide)
      · exact blank_notMem_textIn (by decide)

end Duration

/-! ### Failures -/

namespace Signature

/-- What messages put in front of what comes from outside, with numbers in between. -/
def fronts : List String :=
  ["network error: ", "control plane returned ", ": ", "malformed response: ",
    "request timed out after ", "credential error: ", "failed to provision instance: ",
    "provisioning incomplete: response missing ", "failed to write ", " file(s): ",
    "file write rejected: ", "attempt timed out after "]

theorem isInert_of_mem_fronts {front : String} (h : front ∈ fronts) : IsInert front := by
  have all : fronts.all (fun front => isClear (front.toList.map fold)) = true := by decide +kernel
  exact isInert_of_isClear (List.all_eq_true.mp all front h)

theorem saysLost_append {front : String} (h : front ∈ fronts) (text : String) :
    saysLost (front ++ text) = saysLost text :=
  (isInert_of_mem_fronts h).saysLost_append text

theorem saysLost_append_number {before after : String} (hbefore : before ∈ fronts)
    (hafter : after ∈ fronts) (n : Nat) (text : String) :
    saysLost (before ++ toString n ++ after ++ text) = saysLost text :=
  (((isInert_of_mem_fronts hbefore).append (isInert_toString n)).append
    (isInert_of_mem_fronts hafter)).saysLost_append text

theorem saysLost_append_duration {front : String} (h : front ∈ fronts) (limit : Duration) :
    saysLost (front ++ limit.text) = false :=
  (saysLost_append h limit.text).trans (saysLost_of_blank_notMem limit.blank_notMem_text)

end Signature

open Signature

theorem ControlPlane.Fault.saysLost_message (fault : Fault) :
    saysLost fault.message = saysLost fault.payload := by
  cases fault with
  | network m => exact saysLost_append (by simp [fronts]) m
  | status code body =>
      exact saysLost_append_number (by simp [fronts]) (by simp [fronts]) code.toNat body
  | decode m => exact saysLost_append (by simp [fronts]) m
  | timeout limit => exact saysLost_append_duration (by simp [fronts]) limit
  | remote m => rfl
  | credential m => exact saysLost_append (by simp [fronts]) m

namespace Failure

/-- What a message puts around its payload makes no difference. -/
theorem isFatal_eq (f : Failure) : f.isFatal = saysLost f.payload := by
  cases f with
  | controlPlane fault => exact fault.saysLost_message
  | provisioningFailed m => exact saysLost_append (by simp [fronts]) m
  | provisioningIncomplete missing => exact saysLost_append (by simp [fronts]) missing
  | writeFailed failed m =>
      exact saysLost_append_number (by simp [fronts]) (by simp [fronts]) failed.toNat m
  | writeRejected m => exact saysLost_append (by simp [fronts]) m
  | attemptTimeout limit => exact saysLost_append_duration (by simp [fronts]) limit
  | credential m => exact saysLost_append (by simp [fronts]) m
  | internal m => rfl

theorem isFatal_iff {f : Failure} :
    f.isFatal = true ↔ ∃ phrase ∈ phrases, Says f.payload phrase := by
  rw [isFatal_eq, saysLost_iff]

end Failure

/-! ### Failed writes -/

theorem infix_intercalate {α : Type} {sep part : List α} {parts : List (List α)}
    (h : part ∈ parts) : part <:+: sep.intercalate parts := by
  induction parts with
  | nil => cases h
  | cons first rest ih =>
      by_cases hrest : rest = []
      · subst hrest
        have hone : sep.intercalate [first] = part := by
          rw [List.intercalate_singleton, List.mem_singleton.mp h]
        exact hone ▸ List.infix_rfl
      · rw [List.intercalate_cons_of_ne_nil hrest, List.append_assoc]
        obtain rfl | h := List.mem_cons.mp h
        · exact (List.prefix_append _ _).isInfix
        · have hsuffix : sep.intercalate rest <:+ first ++ (sep ++ sep.intercalate rest) :=
            (List.suffix_append _ _).trans (List.suffix_append _ _)
          exact (ih h).trans hsuffix.isInfix

namespace ControlPlane.WriteResponse

variable {response : WriteResponse} {r : WriteResult} {error phrase : String}

theorem says_report (herror : r.error = some error) (hsaid : Says error phrase) :
    Says r.report phrase := by
  refine hsaid.of_isInfix ?_
  rw [WriteResult.report, herror, String.toList_append]
  exact (List.suffix_append _ _).isInfix

/-- What is said of one of the files that were not written is said of the write. -/
theorem exists_failure (hr : r ∈ response.results) (hfailed : r.success = false)
    (herror : r.error = some error) (hsaid : Says error phrase) :
    ∃ failure, response.failure? = some failure ∧ Says failure.payload phrase := by
  have hmem : r ∈ response.failed := List.mem_filter.mpr ⟨hr, by simp [hfailed]⟩
  have hsome : response.failed.isEmpty = false :=
    List.isEmpty_eq_false_iff.mpr (List.ne_nil_of_mem hmem)
  refine ⟨_, by rw [failure?, hsome]; rfl, (says_report herror hsaid).of_isInfix ?_⟩
  rw [Failure.payload, String.toList_intercalate, List.map_map]
  exact infix_intercalate (List.mem_map_of_mem hmem)

end ControlPlane.WriteResponse

/-- A failure is fatal exactly if one of the phrases stands in its payload, up to simple case
folding; what its message puts around the payload makes no difference.  A transaction whose write is
answered with a file that was not written for such a reason ends with a fatal failure. -/
theorem Failure.fatal_of_phrases :
    (∀ f : Failure, (f.isFatal = true ↔ ∃ phrase ∈ phrases, Says f.payload phrase) ∧
      f.isFatal = saysLost f.payload) ∧
    ∀ (response : WriteResponse) (r : WriteResult) (error phrase : String),
      r ∈ response.results → r.success = false → r.error = some error → phrase ∈ phrases →
      Says error phrase → ∃ failure : Failure, failure.isFatal = true ∧
        ∀ n request target files s, ∃ t, Transaction.wrote n request target files (.ok response) s =
          Transaction.finish (.error failure) t := by
  refine ⟨fun f => ⟨isFatal_iff, isFatal_eq f⟩, ?_⟩
  intro response r error phrase hr hfailed herror hphrase hsaid
  obtain ⟨failure, hfailure, hpayload⟩ :=
    WriteResponse.exists_failure hr hfailed herror hsaid
  refine ⟨failure, isFatal_iff.mpr ⟨phrase, hphrase, hpayload⟩, fun n request target files s => ?_⟩
  rw [Transaction.wrote]
  simp only [hfailure]
  exact ⟨_, rfl⟩

/-- What went wrong with a file, in capital letters, one of them a Kelvin sign, and with a
long s. -/
def loudReason : String := "upload: NETWOR\u212a CONNECTION LO\u017fT (retry)"

/-- One file was written, and one was not. -/
def partlyWritten : WriteResponse where
  success := false
  results := [⟨"index.html", true, none⟩, ⟨"src/App.tsx", false, some loudReason⟩]

theorem Failure.fatal_of_phrases_of_partlyWritten :
    Says loudReason "network connection lost" ∧ ∃ failure : Failure, failure.isFatal = true ∧
      ∀ n request target files s, ∃ t, Transaction.wrote n request target files
        (.ok partlyWritten) s = Transaction.finish (.error failure) t := by
  have hphrase : "network connection lost" ∈ phrases := by simp [phrases]
  have hsaid : Says loudReason "network connection lost" :=
    (infix_map_fold_iff hphrase).mp
      ⟨"upload: ".toList, " (retry)".toList, by decide +kernel⟩
  exact ⟨hsaid, fatal_of_phrases.2 partlyWritten ⟨"src/App.tsx", false, some loudReason⟩ loudReason
    "network connection lost" (by simp [partlyWritten]) rfl rfl hphrase hsaid⟩

end PreviewDeploy

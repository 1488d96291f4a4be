/-!
# Signatures of lost sessions

Some error texts mean that the infrastructure behind a session is gone, so that trying again in
the same session cannot help.  They are recognised by a pattern that may stand anywhere in the
text, compared up to simple case folding.  A pattern denotes a finite list of words
(`Pattern.words`); `Pattern.rests` matches it at the front of a text.
-/

namespace PreviewDeploy.Signature

/-- Folds a character to the ASCII letter or digit that it equals up to simple case folding, if
there is one: beside the capital letters these are `ſ` (U+017F) and the Kelvin sign (U+212A). -/
def fold (c : Char) : Char :=
  if 'A' ≤ c ∧ c ≤ 'Z' then Char.ofNat (c.toNat + 32)
  else if c = 'ſ' then 's'
  else if c = '\u212a' then 'k'
  else c

/-- A pattern without repetition. -/
inductive Pattern where
  | word (cs : List Char)
  | seq (first second : Pattern)
  | either (first second : Pattern)
  | optional (p : Pattern)

namespace Pattern

/-- The words that a pattern denotes. -/
def words : Pattern → List (List Char)
  | word cs => [cs]
  | seq p q => p.words.flatMap fun u => q.words.map fun v => u ++ v
  | either p q => p.words ++ q.words
  | optional p => p.words ++ [[]]

/-- What is left of a text after a word at its front. -/
def dropWord : List Char → List Char → Option (List Char)
  | [], text => some text
  | _ :: _, [] => none
  | c :: cs, d :: text => if c = d then dropWord cs text else none

/-- What can be left of a text after the pattern at its front. -/
def rests : Pattern → List Char → List (List Char)
  | word cs, text => (dropWord cs text).toList
  | seq p q, text => (p.rests text).flatMap q.rests
  | either p q, text => p.rests text ++ q.rests text
  | optional p, text => p.rests text ++ [text]

/-- The pattern stands somewhere in the text. -/
def occursIn (p : Pattern) : List Char → Bool
  | [] => !(p.rests []).isEmpty
  | c :: text => !(p.rests (c :: text)).isEmpty || p.occursIn text

def ofText (s : String) : Pattern := word s.toList

end Pattern

open Pattern

/-- A network connection lost, a container or runtime gone, or its storage failing. -/
def lostSession : Pattern :=
  either (ofText "network connection lost")
  (either
    (seq (either (ofText "container") (ofText "runtime"))
      (seq (optional (ofText " service"))
        (seq (ofText " ") (either (ofText "disconnected") (ofText "is not running")))))
  (either (seq (ofText "durable object ") (either (ofText "storage") (ofText "reset")))
  (either
    (seq (ofText "storage ")
      (seq (optional (ofText "operation ")) (either (ofText "failed") (ofText "fault"))))
    (ofText "internal error in storage"))))

/-- The text says that the session is lost. -/
def saysLost (text : String) : Bool := lostSession.occursIn (text.toList.map fold)

end PreviewDeploy.Signature

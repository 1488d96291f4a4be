import PreviewDeploy.Proofs.StoredMirror

/-!
# The time of a stored session

The time that a session began at is stored as its text and read back from it.  For the moments that
have texts in RFC 3339 this brings back the moment itself, however many digits of a fraction the
text had, whatever its offset was and within a leap second, unless the offset leads out of the years
of four digits: then the text that is stored has a sign before the year, and the row that was
written without complaint cannot be read (`Store.kept_of_readTime`).
-/

namespace PreviewDeploy.Store

open StateRow (readTime table)

variable {s : Store} {project column text : String} {now t : Timestamp}

theorem readTime_eq_ok : readTime column text = .ok t ↔ Timestamp.parse? text = some t := by
  unfold readTime
  cases Timestamp.parse? text <;> simp

theorem readTime_of_unread (h : Timestamp.parse? text = none) :
    readTime column text = .error (.corrupt table column (.badTime text)) := by
  rw [readTime, h]

/-- What is read after a new session was stored, if its time is on a day beyond the years of four
digits. -/
theorem state_saveSession_of_beyond (session : Session) (h : session.createdAt.IsBeyond) :
    (s.saveSession project session now).state project =
      .error (.corrupt table "session_created_at" (.badTime session.createdAt.text)) := by
  rw [state_saveSession_eq, readTime_of_unread (Timestamp.parse?_text_of_beyond h)]
  rfl

/-- A session whose time was read from a text is read back as it was stored just if the moment has
a year of four digits; else, on the days beyond these years, its row is corrupt. -/
theorem kept_of_readTime (h : readTime column text = .ok t) (s : Store) (project : String)
    (id : SessionId) (now : Timestamp) :
    ((s.saveSession project ⟨id, t⟩ now).state project =
        .ok (some ⟨⟨id, t⟩, none, now.text⟩) ↔ 0 ≤ t.year ∧ t.year ≤ 9999) ∧
      ((s.saveSession project ⟨id, t⟩ now).state project =
        .error (.corrupt table "session_created_at" (.badTime t.text)) ↔ t.IsBeyond) := by
  have hparse := readTime_eq_ok.mp h
  obtain hbeyond | hyears := Timestamp.isBeyond_or_of_parse? hparse
  · rw [state_saveSession_of_beyond ⟨id, t⟩ hbeyond]
    exact ⟨iff_of_false (by simp) hbeyond.not_years, iff_of_true rfl hbeyond⟩
  · have htext : Timestamp.parse? t.text = some t :=
      Timestamp.parse?_text (Timestamp.valid_of_parse? hparse) hyears.1 hyears.2
    have hkept : (s.saveSession project ⟨id, t⟩ now).state project =
        .ok (some ⟨⟨id, t⟩, none, now.text⟩) := state_saveSession htext
    rw [hkept]
    exact ⟨iff_of_true rfl hyears, iff_of_false (by simp) fun h => h.not_years hyears⟩

/-- A leap second with eleven digits of a fraction is kept, the first hour of the year 0 an hour
ahead of UTC is lost. -/
theorem kept_of_readTime_of_leapSecond :
    let leap : Timestamp := ⟨1999, 1, 1, 1, 29, 59, 1123456789⟩
    let early : Timestamp := ⟨-1, 12, 31, 23, 0, 0, 0⟩
    let store : Store := {}
    readTime "session_created_at" "1998-12-31T23:59:60.12345678987-01:30" = .ok leap ∧
      (store.saveSession "demo" ⟨⟨"sess-1"⟩, leap⟩ leap).state "demo" =
        .ok (some ⟨⟨⟨"sess-1"⟩, leap⟩, none, "1999-01-01T01:29:60.123456789+00:00"⟩) ∧
      readTime "session_created_at" "0000-01-01T00:00:00+01:00" = .ok early ∧
      (store.saveSession "demo" ⟨⟨"sess-1"⟩, early⟩ leap).state "demo" =
        .error (.corrupt table "session_created_at" (.badTime "-0001-12-31T23:00:00+00:00")) := by
  intro leap early store
  have hleap : readTime "session_created_at" "1998-12-31T23:59:60.12345678987-01:30" = .ok leap :=
    rfl
  have hearly : readTime "session_created_at" "0000-01-01T00:00:00+01:00" = .ok early := rfl
  have hkept := (kept_of_readTime hleap store "demo" ⟨"sess-1"⟩ leap).1.mpr (by decide)
  have hlost := (kept_of_readTime hearly store "demo" ⟨"sess-1"⟩ leap).2.mpr (by decide)
  rw [show leap.text = "1999-01-01T01:29:60.123456789+00:00" by decide +kernel] at hkept
  rw [show early.text = "-0001-12-31T23:00:00+00:00" by decide +kernel] at hlost
  exact ⟨hleap, hkept, hearly, hlost⟩

/-- The row of a session that began in the first hour of the year 0, an hour ahead of UTC, is
corrupt. -/
theorem not_kept_of_earlyOffset :
    ¬ ∀ (text : String) (t : Timestamp), readTime "session_created_at" text = .ok t →
      ∀ (s : Store) (project : String) (id : SessionId) (now : Timestamp), ∃ inst updatedAt,
        (s.saveSession project ⟨id, t⟩ now).state project =
          .ok (some ⟨⟨id, t⟩, inst, updatedAt⟩) := by
  intro hall
  let early : Timestamp := ⟨-1, 12, 31, 23, 0, 0, 0⟩
  obtain ⟨inst, updatedAt, hkept⟩ :=
    hall "0000-01-01T00:00:00+01:00" early rfl {} "demo" ⟨"sess-1"⟩ early
  rw [state_saveSession_of_beyond ⟨⟨"sess-1"⟩, early⟩ (by decide)] at hkept
  cases hkept

end PreviewDeploy.Store

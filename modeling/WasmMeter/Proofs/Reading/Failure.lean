import WasmMeter.Proofs.Reading.SelfDelimiting

/-!
What a failure says about the parts of a reader, beside what an answer says: the part that failed, the
error it raised and where it had come to.
-/
namespace WasmMeter.Reader

variable {α β : Type} {c d : Cursor} {e : Error}

/-- The first part fails, or it answers and the second one fails behind it. -/
theorem bind_eq_error_iff {r : Reader α} {f : α → Reader β} :
    (r >>= f) c = .error e d ↔ r c = .error e d ∨ ∃ a middle, r c = .ok a middle ∧
      f a middle = .error e d := by
  cases hr : r c with
  | ok a middle =>
      rw [bind_of_ok hr]
      constructor
      · exact fun h => .inr ⟨a, middle, rfl, h⟩
      · rintro (h | ⟨_, _, h, hf⟩)
        · cases h
        · cases h; exact hf
  | error error middle =>
      rw [bind_of_error hr]
      constructor
      · intro h; cases h; exact .inl rfl
      · rintro (h | ⟨_, _, h, -⟩) <;> cases h
        rfl

theorem pure_ne_error {a : α} : (pure a : Reader α) c ≠ .error e d := by
  intro h; cases h

/-- A reader that throws has read nothing before it. -/
theorem throw_eq_error_iff {error : Error} :
    (throw error : Reader α) c = .error e d ↔ error = e ∧ c = d := by
  constructor
  · intro h; cases h; exact ⟨rfl, rfl⟩
  · rintro ⟨rfl, rfl⟩; rfl

theorem map_eq_error_iff {r : Reader α} {f : α → β} :
    (f <$> r) c = .error e d ↔ r c = .error e d := by
  simp only [Functor.map, EStateM.map]
  cases r c with
  | ok a middle => constructor <;> intro h <;> cases h
  | error error middle => constructor <;> intro h <;> cases h <;> rfl

/-- Errors are replaced where they were raised, and none is made or lost. -/
theorem adaptExcept_eq_error_iff {r : Reader α} {f : Error → Error} :
    r.adaptExcept f c = .error e d ↔ ∃ cause, r c = .error cause d ∧ f cause = e := by
  unfold EStateM.adaptExcept
  cases r c with
  | ok a middle =>
      constructor
      · intro h; cases h
      · rintro ⟨_, h, -⟩; cases h
  | error error middle =>
      constructor
      · intro h; cases h; exact ⟨error, rfl, rfl⟩
      · rintro ⟨_, h, rfl⟩; cases h; rfl

/-- A new name for the end of the input is given to an error that was there. -/
theorem mapEnd_eq_error_iff {r : Reader α} {cause : Nat → Error} :
    mapEnd cause r c = .error e d ↔ ∃ error, r c = .error error d ∧ error.mapEnd cause = e :=
  adaptExcept_eq_error_iff

/-- What fails inside of a window leaves the cursor outside where it was. -/
theorem within_eq_error_iff {r : Reader α} {w : Cursor} :
    within w r c = .error e d ↔ (∃ inner, r w = .error e inner) ∧ c = d := by
  unfold within
  cases r w with
  | ok a inner =>
      constructor
      · intro h; cases h
      · rintro ⟨⟨_, h⟩, -⟩; cases h
  | error error inner =>
      constructor
      · intro h; cases h; exact ⟨⟨inner, rfl⟩, rfl⟩
      · rintro ⟨⟨_, h⟩, rfl⟩; cases h; rfl

/-- Keeping the source changes nothing about errors. -/
theorem withSource_eq_error_iff {r : Reader α} :
    withSource r c = .error e d ↔ r c = .error e d := by
  unfold withSource
  cases r c with
  | ok a middle => constructor <;> intro h <;> cases h
  | error error middle => constructor <;> intro h <;> cases h <;> rfl

/-- A byte is missing only at the end, and is named by its offset. -/
theorem byte_eq_error_iff :
    byte c = .error e d ↔ c.unread = [] ∧ e = .unexpectedEnd c.position 1 ∧ c = d := by
  obtain ⟨unread, position⟩ := c
  cases unread with
  | nil =>
      constructor
      · intro h; cases h; exact ⟨rfl, rfl, rfl⟩
      · rintro ⟨-, rfl, rfl⟩; rfl
  | cons b rest =>
      constructor
      · intro h; cases h
      · rintro ⟨h, -⟩; cases h

/-- Too few bytes are left, and as many are missing as were asked for beyond them. None is taken. -/
theorem take_eq_error_iff {n : Nat} :
    take n c = .error e d ↔
      c.remaining < n ∧ e = .unexpectedEnd c.position (n - c.remaining) ∧ c = d := by
  unfold take Cursor.remaining
  dsimp only
  rw [List.length_take]
  split
  · next h =>
    constructor
    · intro h; cases h
    · rintro ⟨hlt, -⟩; omega
  · next h =>
    have hmin : min n c.unread.length = c.unread.length := by omega
    rw [hmin]
    constructor
    · intro h; cases h; exact ⟨by omega, rfl, rfl⟩
    · rintro ⟨-, rfl, rfl⟩; rfl

/-- A window that does not fit is refused before anything in it is read. -/
theorem window_eq_error_iff {n : Nat} :
    window n c = .error e d ↔
      c.remaining < n ∧ e = .unexpectedEnd c.position (n - c.remaining) ∧ c = d := by
  rw [window, position_bind, bind_eq_error_iff, ← take_eq_error_iff]
  constructor
  · rintro (h | ⟨_, _, -, h⟩)
    · exact h
    · exact absurd h pure_ne_error
  · exact .inl

/-- The place where a reader stopped is no part of what it says. -/
theorem answer_eq_error_iff {r : Reader α} :
    r.answer c = .error e ↔ ∃ d, r c = .error e d := by
  unfold answer
  cases r c with
  | ok a middle =>
      constructor
      · intro h; cases h
      · rintro ⟨_, h⟩; cases h
  | error error middle =>
      constructor
      · intro h; cases h; exact ⟨middle, rfl⟩
      · rintro ⟨_, h⟩; cases h; rfl

end WasmMeter.Reader

import WasmMeter.Cursor

/-!
What readers take. `Reads r bytes a` says that `r` takes exactly `bytes` and answers `a`, whatever
stands behind them and wherever they begin; it composes along a sequence of readers. `Progresses r`
says that an answer costs at least one byte, which is what a loop over the unread bytes needs of its
step: it can then be unfolded without its bound.
-/
namespace WasmMeter.Reader

variable {α β σ : Type} {c d : Cursor}

/-- After a reader that succeeds, the next one goes on where it stopped. -/
theorem bind_of_ok {r : Reader α} {f : α → Reader β} {a : α} (h : r c = .ok a d) :
    (r >>= f) c = f a d := by
  simp only [bind, EStateM.bind, h]

/-- The first error is the error of the whole. -/
theorem bind_of_error {r : Reader α} {f : α → Reader β} {e : Error} (h : r c = .error e d) :
    (r >>= f) c = .error e d := by
  simp only [bind, EStateM.bind, h]

/-! ### Exactly these bytes -/

/-- The reader takes exactly these bytes, for this answer. -/
def Reads (r : Reader α) (bytes : List UInt8) (a : α) : Prop :=
  ∀ rest position, r ⟨bytes ++ rest, position⟩ = .ok a ⟨rest, position + bytes.length⟩

theorem reads_pure (a : α) : Reads (pure a) [] a := fun _ _ => rfl

/-- Readers in sequence read their bytes in sequence. -/
theorem Reads.bind {r : Reader α} {f : α → Reader β} {first second : List UInt8} {a : α} {b : β}
    (hr : Reads r first a) (hf : Reads (f a) second b) : Reads (r >>= f) (first ++ second) b := by
  intro rest position
  rw [List.append_assoc, bind_of_ok (hr _ _), hf, List.length_append, Nat.add_assoc]

theorem Reads.map {r : Reader α} {bytes : List UInt8} {a : α} (h : Reads r bytes a) (f : α → β) :
    Reads (f <$> r) bytes (f a) := by
  intro rest position
  simp only [Functor.map, EStateM.map, h rest position]

theorem Reads.bind_pure {r : Reader α} {bytes : List UInt8} {a : α} (h : Reads r bytes a)
    (f : α → β) : Reads (r >>= fun x => pure (f x)) bytes (f a) := by
  have := Reads.bind (f := fun x => pure (f x)) h (reads_pure (f a))
  rwa [List.append_nil] at this

/-- Looking where the cursor stands takes nothing. -/
theorem reads_position_bind {f : Nat → Reader α} {bytes : List UInt8} {a : α}
    (h : ∀ start, Reads (f start) bytes a) : Reads (position >>= f) bytes a := by
  intro rest start
  rw [bind_of_ok (rfl : Reader.position ⟨bytes ++ rest, start⟩ = .ok start ⟨bytes ++ rest, start⟩)]
  exact h start rest start

theorem reads_byte (b : UInt8) : Reads byte [b] b := fun _ _ => rfl

theorem reads_take (bytes : List UInt8) : Reads (take bytes.length) bytes bytes := by
  intro rest position
  simp [take]

/-- The bytes that were read are the source. -/
theorem Reads.withSource {r : Reader α} {bytes : List UInt8} {a : α} (h : Reads r bytes a) :
    Reads r.withSource bytes (a, bytes) := by
  intro rest position
  simp [Reader.withSource, h rest position]

/-! ### Repetition -/

/-- The accumulator is put in front of what is still to be read. -/
theorem times.go_eq (item : Reader α) (done : List α) (n : Nat) (c : Cursor) :
    times.go item done n c =
      (times.go item [] n >>= fun items => pure (done.reverse ++ items)) c := by
  induction n generalizing done c with
  | zero => simp [times.go, bind, EStateM.bind, pure, EStateM.pure]
  | succ n ih =>
      simp only [times.go]
      cases h : item c with
      | error e d => simp [bind, EStateM.bind, h]
      | ok a d =>
          rw [bind_of_ok h, ih]
          simp only [bind, EStateM.bind, h]
          rw [ih [a]]
          simp only [bind, EStateM.bind, pure, EStateM.pure]
          cases times.go item [] n d <;> simp

@[simp] theorem times_zero (item : Reader α) : times 0 item = pure [] := rfl

/-- Reading one item more is reading an item and then the rest. -/
theorem times_succ (item : Reader α) (n : Nat) :
    times (n + 1) item = item >>= fun a => times n item >>= fun items => pure (a :: items) := by
  funext c
  rw [times, times.go]
  cases h : item c with
  | ok a d => rw [bind_of_ok h, bind_of_ok h, times.go_eq]; rfl
  | error e d => rw [bind_of_error h, bind_of_error h]

/-- Items written one after another are read back one after another. -/
theorem reads_times {item : Reader α} {bytes : α → List UInt8} {items : List α}
    (h : ∀ a ∈ items, Reads item (bytes a) a) :
    Reads (times items.length item) (items.flatMap bytes) items := by
  induction items with
  | nil => exact reads_pure []
  | cons a items ih =>
      rw [List.length_cons, times_succ, List.flatMap_cons]
      refine (h a (by simp)).bind ?_
      exact (ih fun b hb => h b (by simp [hb])).bind_pure (a :: ·)

/-! ### Loops -/

/-- An answer costs at least one byte. -/
def Progresses (r : Reader α) : Prop :=
  ∀ c a d, r c = .ok a d → d.remaining < c.remaining

theorem progresses_byte : Progresses byte := by
  intro c a d h
  unfold byte at h
  split at h
  · cases h
  · next hu => cases h; simp [Cursor.remaining, hu]

variable {step : σ → Reader (σ ⊕ α)} {atEnd : σ → Reader α} {s : σ}

theorem whileUnread.go_of_isEmpty (bound : List UInt8) (h : c.isEmpty = true) :
    whileUnread.go step atEnd bound s c = atEnd s c := by
  cases bound with
  | nil => rfl
  | cons x bound =>
      rw [whileUnread.go, bind_of_ok (rfl : isAtEnd c = .ok c.isEmpty c), h, if_pos rfl]

/-- One round of the loop, with a byte of the bound used up. -/
theorem whileUnread.go_cons {x : UInt8} {bound : List UInt8} (h : c.isEmpty = false) :
    whileUnread.go step atEnd (x :: bound) s c =
      match step s c with
      | .ok (.inl next) d => whileUnread.go step atEnd bound next d
      | .ok (.inr a) d => .ok a d
      | .error e d => .error e d := by
  rw [whileUnread.go, bind_of_ok (rfl : isAtEnd c = .ok c.isEmpty c), h, if_neg (by decide)]
  cases hs : step s c with
  | ok a d => rw [bind_of_ok hs]; cases a <;> rfl
  | error e d => rw [bind_of_error hs]

/-- Any bound that is long enough gives the same loop. -/
theorem whileUnread.go_eq_go (h : ∀ s, Progresses (step s)) {bound other : List UInt8}
    (hb : c.remaining ≤ bound.length) (ho : c.remaining ≤ other.length) :
    whileUnread.go step atEnd bound s c = whileUnread.go step atEnd other s c := by
  induction bound generalizing other s c with
  | nil =>
      have he : c.isEmpty = true := by simp_all [Cursor.isEmpty, Cursor.remaining]
      rw [go_of_isEmpty [] he, go_of_isEmpty other he]
  | cons x bound ih =>
      cases he : c.isEmpty with
      | true => rw [go_of_isEmpty _ he, go_of_isEmpty _ he]
      | false =>
          cases other with
          | nil => simp_all [Cursor.isEmpty, Cursor.remaining]
          | cons y other =>
              rw [go_cons he, go_cons he]
              split
              · next hs =>
                have := h s c _ _ hs
                exact ih (by simp at hb; omega) (by simp at ho; omega)
              · rfl
              · rfl

theorem whileUnread_of_isEmpty (h : c.isEmpty = true) :
    whileUnread step atEnd s c = atEnd s c :=
  whileUnread.go_of_isEmpty c.unread h

/-- While something is left to read, the loop is its step and then the loop. -/
theorem whileUnread_eq (h : ∀ s, Progresses (step s)) (he : c.isEmpty = false) :
    whileUnread step atEnd s c =
      match step s c with
      | .ok (.inl next) d => whileUnread step atEnd next d
      | .ok (.inr a) d => .ok a d
      | .error e d => .error e d := by
  obtain ⟨x, bound, hc⟩ : ∃ x bound, c.unread = x :: bound := by
    cases hu : c.unread <;> simp_all [Cursor.isEmpty]
  rw [whileUnread, hc, whileUnread.go_cons he]
  split
  · next hs =>
    have := h s c _ _ hs
    simp only [Cursor.remaining, hc, List.length_cons] at this
    exact whileUnread.go_eq_go h (by simp only [Cursor.remaining]; omega) (Nat.le_refl _)
  · rfl
  · rfl

/-- Bytes in front of a cursor leave something to read. -/
theorem isEmpty_append_of_ne_nil {bytes : List UInt8} (h : bytes ≠ []) (rest : List UInt8)
    (place : Nat) : (Cursor.mk (bytes ++ rest) place).isEmpty = false := by
  cases bytes with
  | nil => exact absurd rfl h
  | cons b bytes => rfl

/-- A loop comes to its end, or its first step settles what comes of it, or it goes on behind that
step. -/
theorem whileUnread_eq_iff (h : ∀ s, Progresses (step s)) {result : EStateM.Result Error Cursor α} :
    whileUnread step atEnd s c = result ↔
      c.isEmpty = true ∧ atEnd s c = result ∨
      c.isEmpty = false ∧
        ((∃ a d, step s c = .ok (.inr a) d ∧ .ok a d = result) ∨
          (∃ e d, step s c = .error e d ∧ .error e d = result) ∨
          ∃ t d, step s c = .ok (.inl t) d ∧ whileUnread step atEnd t d = result) := by
  cases he : c.isEmpty with
  | true => rw [whileUnread_of_isEmpty he]; simp
  | false =>
      rw [whileUnread_eq h he]
      cases hs : step s c with
      | error e d => simp [and_assoc]
      | ok answer d => cases answer <;> simp [and_assoc]

end WasmMeter.Reader

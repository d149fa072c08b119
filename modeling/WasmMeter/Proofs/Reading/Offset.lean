import WasmMeter.Proofs.Reading.SelfDelimiting

/-!
Reading at another offset. The offset at which bytes begin shows in the offsets of errors and of the
cursor only, never in an answer. A part of a reader may have been told where it started, so the
property is stated of two readers, the second of which was told a place a distance further on.
-/
namespace WasmMeter

/-- The same error, found a distance further on. -/
def Error.move (distance : Nat) : Error → Error
  | .malformedSection id position flaw => .malformedSection id (position + distance) flaw
  | .unexpectedEnd position wanted => .unexpectedEnd (position + distance) wanted
  | .invalidLeb128 position => .invalidLeb128 (position + distance)
  | .unknownOpcode byte sub position => .unknownOpcode byte sub (position + distance)
  | .invalidImmediate position flaw => .invalidImmediate (position + distance) flaw
  | .unmatchedBlockEnd position => .unmatchedBlockEnd (position + distance)
  | .truncatedBody position => .truncatedBody (position + distance)
  | .trailingCode position => .trailingCode (position + distance)
  | error => error

/-- The end of the input may be renamed before or after everything is moved. -/
theorem Error.move_mapEnd {distance : Nat} {cause other : Nat → Error}
    (h : ∀ place, (cause place).move distance = other (place + distance)) (error : Error) :
    (error.mapEnd cause).move distance = (error.move distance).mapEnd other := by
  cases error with
  | unexpectedEnd place wanted => exact h place
  | _ => rfl

/-- The same unread bytes, a distance further on. -/
def Cursor.move (distance : Nat) (c : Cursor) : Cursor := ⟨c.unread, c.position + distance⟩

namespace Reader

variable {α β : Type} {distance : Nat}

/-- What a reader comes to, a distance further on. -/
def moveResult (distance : Nat) :
    EStateM.Result Error Cursor α → EStateM.Result Error Cursor α
  | .ok a c => .ok a (c.move distance)
  | .error error c => .error (error.move distance) (c.move distance)

/-- A distance further on, `other` does what `r` does. -/
def Moves (distance : Nat) (r other : Reader α) : Prop :=
  ∀ c : Cursor, other (c.move distance) = moveResult distance (r c)

/-- The reader does the same at every offset. -/
def Uniform (r : Reader α) : Prop := ∀ distance, Moves distance r r

theorem moves_pure (a : α) : Moves distance (pure a) (pure a) := fun _ => rfl

/-- An error that names a place has to name the moved place on the other side. -/
theorem moves_throw {error other : Error} (h : error.move distance = other) :
    Moves distance (throw error : Reader α) (throw other) := by
  intro c
  rw [← h]
  rfl

/-- Where the answers differ as well, what goes on from them has to make up for the difference. -/
theorem Moves.bind_of_map {γ : Type} {r : Reader α} {other : Reader γ} {change : α → γ}
    {f : α → Reader β} {g : γ → Reader β} (hr : Moves distance (change <$> r) other)
    (hf : ∀ a, Moves distance (f a) (g (change a))) : Moves distance (r >>= f) (other >>= g) := by
  intro c
  have hc := hr c
  simp only [Functor.map, EStateM.map] at hc
  cases h : r c with
  | ok a d =>
      rw [h] at hc
      rw [bind_of_ok h, bind_of_ok hc]
      exact hf a d
  | error error d =>
      rw [h] at hc
      rw [bind_of_error h, bind_of_error hc]
      rfl

/-- The second part is given the same answer, a distance further on. -/
theorem Moves.bind {r other : Reader α} {f g : α → Reader β} (hr : Moves distance r other)
    (hf : ∀ a, Moves distance (f a) (g a)) : Moves distance (r >>= f) (other >>= g) := by
  rw [← id_map r] at hr
  exact hr.bind_of_map hf

/-- What is made of an offset has to move with it. -/
theorem moves_position_bind {f g : Nat → Reader α}
    (h : ∀ start, Moves distance (f start) (g (start + distance))) :
    Moves distance (position >>= f) (position >>= g) := by
  intro c
  exact h c.position c

theorem Moves.map {r other : Reader α} (hr : Moves distance r other) (f : α → β) :
    Moves distance (f <$> r) (f <$> other) := by
  rw [← bind_pure_comp, ← bind_pure_comp]
  exact hr.bind fun a => moves_pure (f a)

/-- Errors may be replaced on both sides, if the replacement moves with them. -/
theorem Moves.adaptExcept {r other : Reader α} {f g : Error → Error} (hr : Moves distance r other)
    (h : ∀ error, (f error).move distance = g (error.move distance)) :
    Moves distance (r.adaptExcept f) (other.adaptExcept g) := by
  intro c
  have hc := hr c
  unfold EStateM.adaptExcept
  rw [hc]
  cases r c with
  | ok a d => rfl
  | error error d => simp only [moveResult, h]

/-- The new name of the end has to move as the end does. -/
theorem Moves.mapEnd {r other : Reader α} {cause cause' : Nat → Error}
    (hr : Moves distance r other)
    (h : ∀ place, (cause place).move distance = cause' (place + distance)) :
    Moves distance (mapEnd cause r) (mapEnd cause' other) :=
  hr.adaptExcept (Error.move_mapEnd h)

/-- A byte is the same wherever it stands, and is missed where it should stand. -/
theorem moves_byte : Moves distance byte byte := by
  intro c
  obtain ⟨unread, place⟩ := c
  cases unread with
  | nil => rfl
  | cons b rest =>
      simp only [byte, moveResult, Cursor.move, Nat.add_right_comm place 1 distance]

theorem moves_peek? : Moves distance peek? peek? := fun _ => rfl

/-- The same holds for any number of bytes. -/
theorem moves_take (n : Nat) : Moves distance (take n) (take n) := by
  intro c
  unfold take Cursor.move
  dsimp only
  split
  · simp only [moveResult, Cursor.move, Nat.add_right_comm c.position n distance]
  · rfl

/-- All that is left is the same wherever it stands. -/
theorem moves_takeRest : Moves distance takeRest takeRest := by
  intro c
  simp only [takeRest, moveResult, Cursor.move, Nat.add_right_comm c.position _ distance]

/-- Items that differ by a change give sequences that differ by the change of every item. -/
theorem Moves.times_map {item other : Reader α} {change : α → α}
    (h : Moves distance (change <$> item) other) (n : Nat) :
    Moves distance (List.map change <$> times n item) (times n other) := by
  induction n with
  | zero => exact moves_pure []
  | succ n ih =>
      rw [times_succ, times_succ, map_bind]
      refine h.bind_of_map fun a => ?_
      rw [map_bind]
      refine ih.bind_of_map fun items => ?_
      rw [map_pure]
      exact moves_pure _

/-- Every item moves by the same distance. -/
theorem Moves.times {item other : Reader α} (h : Moves distance item other) (n : Nat) :
    Moves distance (times n item) (times n other) := by
  rw [← id_map item] at h
  have hn := h.times_map n
  rwa [List.map_id_fun, id_map] at hn

/-! ### Cursors of their own, sources and loops -/

/-- A window that is moved is the window of what was moved. -/
theorem moves_window (n : Nat) :
    Moves distance (Cursor.move distance <$> window n) (window n) := by
  rw [window, map_bind]
  refine moves_position_bind fun start => ?_
  rw [map_bind]
  exact (moves_take n).bind fun bytes => moves_pure _

/-- Inside a moved window the same is read, and the window that is left is the moved one. -/
theorem Moves.within {r other : Reader α} {change : α → α}
    (h : Moves distance (change <$> r) other) (w : Cursor) :
    Moves distance (Prod.map change (Cursor.move distance) <$> within w r)
      (within (w.move distance) other) := by
  intro c
  have hw := h w
  simp only [Functor.map, EStateM.map] at hw ⊢
  unfold Reader.within
  rw [hw]
  cases r w <;> rfl

/-- The bytes that an answer took do not move: only their place does. -/
theorem Moves.withSource {r other : Reader α} (h : Moves distance r other) :
    Moves distance (withSource r) (withSource other) := by
  intro c
  unfold Reader.withSource
  rw [h c]
  cases r c with
  | ok a d => simp only [moveResult, Cursor.move, Nat.add_sub_add_right]
  | error error d => rfl

/-- Turn by turn, and at the end. The induction is on the bytes that are left. -/
theorem Moves.whileUnread {σ : Type} {step other : σ → Reader (σ ⊕ α)}
    {atEnd atEnd' : σ → Reader α} (hstep : ∀ s, Moves distance (step s) (other s))
    (hend : ∀ s, Moves distance (atEnd s) (atEnd' s)) (s : σ) :
    Moves distance (whileUnread step atEnd s) (whileUnread other atEnd' s) := by
  have hgo (bound : List UInt8) : ∀ s, Moves distance (whileUnread.go step atEnd bound s)
      (whileUnread.go other atEnd' bound s) := by
    induction bound with
    | nil => exact hend
    | cons x bound ih =>
        intro s
        have hempty : Moves distance isAtEnd isAtEnd := fun _ => rfl
        refine hempty.bind fun isAtEnd => ?_
        split
        · exact hend s
        · refine (hstep s).bind fun answer => ?_
          cases answer with
          | inl next => exact ih next
          | inr a => exact moves_pure a
  exact fun c => hgo c.unread s c

/-! ### Integers and sequences -/

/-- The groups of an integer are the same anywhere; its error names where the integer began. -/
theorem moves_groups (start last leading : Nat) :
    Moves distance (groups start last leading) (groups (start + distance) last leading) := by
  induction leading with
  | zero =>
      refine moves_byte.bind fun b => ?_
      split
      · exact moves_pure _
      · exact moves_throw rfl
  | succ leading ih =>
      refine moves_byte.bind fun b => ?_
      split
      · exact moves_pure _
      · exact ih.bind fun n => moves_pure _

theorem moves_signedGroups (start last leading : Nat) :
    Moves distance (signedGroups start last leading)
      (signedGroups (start + distance) last leading) := by
  induction leading with
  | zero =>
      refine moves_byte.bind fun b => ?_
      dsimp only
      split
      · exact moves_pure _
      · exact moves_throw rfl
  | succ leading ih =>
      refine moves_byte.bind fun b => ?_
      split
      · exact moves_pure _
      · exact ih.bind fun i => moves_pure _

/-- So an integer is read alike at every offset. -/
theorem uniform_unsigned (width : Nat) : Uniform (unsigned width) :=
  fun _ => moves_position_bind fun start => moves_groups start _ _

theorem uniform_signed (width : Nat) : Uniform (signed width) :=
  fun _ => moves_position_bind fun start => moves_signedGroups start _ _

theorem uniform_uint32 : Uniform uint32 :=
  fun distance => (uniform_unsigned 32 distance).bind fun _ => moves_pure _

theorem uniform_uint64 : Uniform uint64 :=
  fun distance => (uniform_unsigned 64 distance).bind fun _ => moves_pure _

theorem uniform_int32 : Uniform int32 :=
  fun distance => (uniform_signed 32 distance).bind fun _ => moves_pure _

theorem uniform_int64 : Uniform int64 :=
  fun distance => (uniform_signed 64 distance).bind fun _ => moves_pure _

theorem uniform_word (width : Nat) : Uniform (word width) :=
  fun _ => (moves_take width).bind fun _ => moves_pure _

/-- Nor does a sequence ask where it stands, if its items do not. -/
theorem Uniform.vector {item : Reader α} (h : Uniform item) : Uniform (vector item) :=
  fun distance => (uniform_uint32 distance).bind fun n => (h distance).times n.toNat

/-- A self-delimiting reader that does the same at every offset reads exactly the bytes that it
takes. -/
theorem SelfDelimiting.reads {r : Reader α} (h : SelfDelimiting r) (hu : Uniform r)
    {c d : Cursor} {a : α} (hr : r c = .ok a d) :
    ∃ bytes, c.unread = bytes ++ d.unread ∧ Reads r bytes a := by
  obtain ⟨bytes, hc, hb⟩ := h c a d hr
  refine ⟨bytes, hc, fun rest place => ?_⟩
  have hstart := hu c.position ⟨bytes ++ rest, 0⟩
  simp only [Cursor.move, Nat.zero_add] at hstart
  rw [hb rest] at hstart
  have hplace := hu place ⟨bytes ++ rest, 0⟩
  simp only [Cursor.move, Nat.zero_add] at hplace
  rw [hplace]
  cases h0 : r ⟨bytes ++ rest, 0⟩ with
  | error error e => rw [h0] at hstart; cases hstart
  | ok b e =>
      rw [h0] at hstart
      injection hstart with ha he
      obtain ⟨unread, position⟩ := e
      simp only [Cursor.move, Cursor.mk.injEq] at he
      obtain ⟨rfl, hp⟩ := he
      have hlength : position = bytes.length := by omega
      simp only [moveResult, Cursor.move, ha, hlength, Nat.add_comm place]

end Reader

end WasmMeter

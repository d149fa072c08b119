import WasmMeter.Bytes.Lemmas

/-!
Which bytes decide an answer. A self-delimiting reader takes bytes that decide its answer whatever
stands behind them: nothing behind the bytes taken is looked at. Readers are composed of few parts,
so the property is proved for the parts and for each way of putting them together.
-/
namespace WasmMeter.Reader

variable {α β : Type} {c d e : Cursor}

/-! ### What an answer says about the parts of a reader -/

/-- Two parts answer one after the other, the second from where the first one stopped. -/
theorem bind_eq_ok_iff {r : Reader α} {f : α → Reader β} {b : β} :
    (r >>= f) c = .ok b e ↔ ∃ a d, r c = .ok a d ∧ f a d = .ok b e := by
  constructor
  · intro h
    cases hr : r c with
    | ok a d => exact ⟨a, d, rfl, by rwa [bind_of_ok hr] at h⟩
    | error error d => rw [bind_of_error hr] at h; cases h
  · rintro ⟨a, d, hr, hf⟩
    rw [bind_of_ok hr, hf]

theorem pure_eq_ok_iff {a b : α} : (pure a : Reader α) c = .ok b d ↔ a = b ∧ c = d := by
  constructor
  · intro h; cases h; exact ⟨rfl, rfl⟩
  · rintro ⟨rfl, rfl⟩; rfl

theorem throw_ne_ok {error : Error} {a : α} : (throw error : Reader α) c ≠ .ok a d := by
  intro h; cases h

theorem position_bind {f : Nat → Reader α} : (position >>= f) c = f c.position c := rfl

theorem map_eq_ok_iff {r : Reader α} {f : α → β} {b : β} :
    (f <$> r) c = .ok b d ↔ ∃ a, r c = .ok a d ∧ f a = b := by
  simp only [Functor.map, EStateM.map]
  cases hr : r c with
  | ok a e =>
      constructor
      · intro h; cases h; exact ⟨a, rfl, rfl⟩
      · rintro ⟨a, h, rfl⟩; cases h; rfl
  | error error e =>
      constructor
      · intro h; cases h
      · rintro ⟨a, h, -⟩; cases h

/-- Replacing errors changes no answer. -/
theorem adaptExcept_eq_ok_iff {r : Reader α} {f : Error → Error} {a : α} :
    r.adaptExcept f c = .ok a d ↔ r c = .ok a d := by
  unfold EStateM.adaptExcept
  cases r c with
  | ok a d => rfl
  | error error d => constructor <;> intro h <;> cases h

theorem mapEnd_eq_ok_iff {r : Reader α} {cause : Nat → Error} {a : α} :
    mapEnd cause r c = .ok a d ↔ r c = .ok a d :=
  adaptExcept_eq_ok_iff

theorem byte_eq_ok_iff {b : UInt8} :
    byte c = .ok b d ↔ c.unread = b :: d.unread ∧ d.position = c.position + 1 := by
  obtain ⟨unread, position⟩ := c
  obtain ⟨rest, place⟩ := d
  cases unread with
  | nil =>
      constructor
      · intro h; cases h
      · rintro ⟨h, -⟩; cases h
  | cons x unread =>
      constructor
      · intro h; cases h; exact ⟨rfl, rfl⟩
      · rintro ⟨h, hp⟩
        cases h
        change place = position + 1 at hp
        rw [hp]
        rfl

/-- As many bytes are taken as were asked for, and never fewer. -/
theorem take_eq_ok_iff {n : Nat} {bytes : List UInt8} :
    take n c = .ok bytes d ↔
      bytes.length = n ∧ c.unread = bytes ++ d.unread ∧ d.position = c.position + n := by
  constructor
  · intro h
    unfold take at h
    dsimp only at h
    split at h
    · next hn =>
      cases h
      refine ⟨?_, (List.take_append_drop n c.unread).symm, rfl⟩
      have hle := List.length_take_le n c.unread
      omega
    · cases h
  · rintro ⟨rfl, hu, hp⟩
    obtain ⟨unread, position⟩ := c
    obtain ⟨rest, place⟩ := d
    change unread = bytes ++ rest at hu
    change place = position + bytes.length at hp
    rw [hu, hp]
    exact reads_take bytes rest position

/-- A window holds the next bytes and begins where they began; what is read goes on behind it. -/
theorem window_eq_ok_iff {n : Nat} {w : Cursor} :
    window n c = .ok w d ↔
      w.position = c.position ∧ w.unread.length = n ∧ c.unread = w.unread ++ d.unread ∧
        d.position = c.position + n := by
  rw [window, position_bind, bind_eq_ok_iff]
  constructor
  · rintro ⟨bytes, e, ht, hp⟩
    obtain ⟨rfl, rfl⟩ := pure_eq_ok_iff.1 hp
    obtain ⟨hl, hu, he⟩ := take_eq_ok_iff.1 ht
    exact ⟨rfl, hl, hu, he⟩
  · rintro ⟨hw, hl, hu, hd⟩
    refine ⟨w.unread, d, take_eq_ok_iff.2 ⟨hl, hu, hd⟩, pure_eq_ok_iff.2 ⟨?_, rfl⟩⟩
    rw [← hw]

/-- The cursor outside of a window stays where it is, whatever is read inside. -/
theorem within_eq_ok_iff {r : Reader α} {w inner : Cursor} {a : α} :
    within w r c = .ok (a, inner) d ↔ r w = .ok a inner ∧ c = d := by
  unfold within
  cases hr : r w with
  | ok b middle =>
      constructor
      · intro h; cases h; exact ⟨rfl, rfl⟩
      · rintro ⟨h, rfl⟩; cases h; rfl
  | error error middle =>
      constructor
      · intro h; cases h
      · rintro ⟨h, -⟩; cases h

/-- The source of an answer is what was unread before it and is not any more. -/
theorem withSource_eq_ok_iff {r : Reader α} {a : α} {source : List UInt8} :
    withSource r c = .ok (a, source) d ↔
      r c = .ok a d ∧ c.unread.take (d.position - c.position) = source := by
  unfold withSource
  cases hr : r c with
  | ok b middle =>
      constructor
      · intro h; cases h; exact ⟨rfl, rfl⟩
      · rintro ⟨h, rfl⟩; cases h; rfl
  | error error middle =>
      constructor
      · intro h; cases h
      · rintro ⟨h, -⟩; cases h

/-! ### The bytes that were taken -/

/-- Bytes that decide an answer give it wherever they are in front. -/
theorem Reads.run {r : Reader α} {bytes rest : List UInt8} {a : α} (h : Reads r bytes a)
    (hc : c.unread = bytes ++ rest) : r c = .ok a ⟨rest, c.position + bytes.length⟩ := by
  obtain ⟨unread, place⟩ := c
  obtain rfl : unread = bytes ++ rest := hc
  exact h rest place

/-- Bytes that decide an answer are found again in front of others, with their answer. -/
theorem Reads.eq_of_append {r : Reader α} {bytes bytes' rest rest' : List UInt8} {a b : α}
    (h : Reads r bytes a) (h' : Reads r bytes' b) (heq : bytes ++ rest = bytes' ++ rest') :
    a = b ∧ bytes = bytes' ∧ rest = rest' := by
  have hread := h rest 0
  rw [heq, h' rest' 0] at hread
  injection hread with hanswer hcursor
  obtain rfl : rest' = rest := congrArg Cursor.unread hcursor
  exact ⟨hanswer.symm, List.append_cancel_right heq, rfl⟩

/-- The cursor moves by the bytes that decide the answer. -/
theorem Reads.position_eq {r : Reader α} {bytes : List UInt8} {a b : α} (h : Reads r bytes a)
    (hc : c.unread = bytes ++ d.unread) (hr : r c = .ok b d) :
    d.position = c.position + bytes.length := by
  have hagain := h.run hc
  rw [hr] at hagain
  injection hagain with _ hd
  rw [hd]

/-- Bytes between two cursors are found again from their positions. -/
theorem take_unread {bytes : List UInt8} (hc : c.unread = bytes ++ d.unread)
    (hd : d.position = c.position + bytes.length) :
    c.unread.take (d.position - c.position) = bytes := by
  rw [hd, Nat.add_sub_cancel_left, hc, List.take_left]

/-! ### Self-delimiting readers -/

/-- The bytes that an answer takes give the same answer from the same offset whatever stands behind
them. -/
def SelfDelimiting (r : Reader α) : Prop :=
  ∀ c a d, r c = .ok a d →
    ∃ bytes, c.unread = bytes ++ d.unread ∧
      ∀ rest, r ⟨bytes ++ rest, c.position⟩ = .ok a ⟨rest, c.position + bytes.length⟩

/-- The cursor stands behind the bytes that decide the answer. -/
theorem SelfDelimiting.exists_bytes {r : Reader α} (h : SelfDelimiting r) {a : α}
    (hr : r c = .ok a d) :
    ∃ bytes, c.unread = bytes ++ d.unread ∧ d.position = c.position + bytes.length ∧
      ∀ rest, r ⟨bytes ++ rest, c.position⟩ = .ok a ⟨rest, c.position + bytes.length⟩ := by
  obtain ⟨bytes, hu, hb⟩ := h c a d hr
  have hc := hb d.unread
  rw [← hu, hr] at hc
  injection hc with _ hd
  exact ⟨bytes, hu, by rw [hd], hb⟩

/-- An answer moves the cursor over bytes that were unread, and by no more than their number. -/
theorem SelfDelimiting.advances {r : Reader α} (h : SelfDelimiting r) {a : α}
    (hr : r c = .ok a d) :
    ∃ bytes, c.unread = bytes ++ d.unread ∧ d.position = c.position + bytes.length :=
  (h.exists_bytes hr).imp fun _ hbytes => ⟨hbytes.1, hbytes.2.1⟩

/-- More bytes behind those that were given change nothing and stay unread. -/
theorem SelfDelimiting.append {r : Reader α} (h : SelfDelimiting r) {a : α} (hr : r c = .ok a d)
    (rest : List UInt8) :
    r ⟨c.unread ++ rest, c.position⟩ = .ok a ⟨d.unread ++ rest, d.position⟩ := by
  obtain ⟨bytes, hu, hp, hb⟩ := h.exists_bytes hr
  rw [hu, List.append_assoc, hb, hp]

theorem selfDelimiting_pure (a : α) : SelfDelimiting (pure a) := by
  intro c b d h
  obtain ⟨rfl, rfl⟩ := pure_eq_ok_iff.1 h
  exact ⟨[], rfl, fun rest => rfl⟩

theorem selfDelimiting_throw (error : Error) : SelfDelimiting (throw error : Reader α) :=
  fun _ _ _ h => absurd h throw_ne_ok

/-- Where each of two parts knows its end, so do both together. -/
theorem SelfDelimiting.bind {r : Reader α} {f : α → Reader β} (hr : SelfDelimiting r)
    (hf : ∀ a, SelfDelimiting (f a)) : SelfDelimiting (r >>= f) := by
  intro c b e h
  obtain ⟨a, d, ha, hb⟩ := bind_eq_ok_iff.1 h
  obtain ⟨first, hc, hp, hfirst⟩ := hr.exists_bytes ha
  obtain ⟨second, hd, hsecond⟩ := hf a d b e hb
  refine ⟨first ++ second, by rw [hc, hd, List.append_assoc], fun rest => ?_⟩
  rw [List.append_assoc, bind_of_ok (hfirst _), ← hp, hsecond, hp, List.length_append,
    Nat.add_assoc]

/-- The offset may be looked at: that the answer is the same is only asked for from the same offset. -/
theorem selfDelimiting_position_bind {f : Nat → Reader α} (hf : ∀ start, SelfDelimiting (f start)) :
    SelfDelimiting (position >>= f) := by
  intro c a d h
  exact hf c.position c a d h

theorem SelfDelimiting.map {r : Reader α} (hr : SelfDelimiting r) (f : α → β) :
    SelfDelimiting (f <$> r) := by
  rw [← bind_pure_comp]
  exact hr.bind fun a => selfDelimiting_pure (f a)

/-- Another name for the end of the input changes no answer. -/
theorem SelfDelimiting.mapEnd {r : Reader α} (hr : SelfDelimiting r) (cause : Nat → Error) :
    SelfDelimiting (mapEnd cause r) := by
  intro c a d h
  obtain ⟨bytes, hc, hb⟩ := hr c a d (mapEnd_eq_ok_iff.1 h)
  exact ⟨bytes, hc, fun rest => mapEnd_eq_ok_iff.2 (hb rest)⟩

/-- The bytes that an answer took are part of the answer, and the same ones are taken again. -/
theorem SelfDelimiting.withSource {r : Reader α} (hr : SelfDelimiting r) :
    SelfDelimiting (withSource r) := by
  rintro c ⟨a, source⟩ d h
  obtain ⟨ha, hsource⟩ := withSource_eq_ok_iff.1 h
  obtain ⟨bytes, hc, hd, hb⟩ := hr.exists_bytes ha
  refine ⟨bytes, hc, fun rest => withSource_eq_ok_iff.2 ⟨hb rest, ?_⟩⟩
  rw [← hsource, take_unread hc hd]
  exact take_unread rfl rfl

theorem selfDelimiting_byte : SelfDelimiting byte := by
  intro c b d h
  exact ⟨[b], (byte_eq_ok_iff.1 h).1, fun rest => rfl⟩

theorem selfDelimiting_take (n : Nat) : SelfDelimiting (take n) := by
  intro c bytes d h
  obtain ⟨rfl, hu, -⟩ := take_eq_ok_iff.1 h
  exact ⟨bytes, hu, fun rest => reads_take bytes rest c.position⟩

/-- The number of items is given, so nothing behind the last of them is looked at. -/
theorem SelfDelimiting.times {item : Reader α} (h : SelfDelimiting item) (n : Nat) :
    SelfDelimiting (times n item) := by
  induction n with
  | zero => exact selfDelimiting_pure []
  | succ n ih =>
      rw [times_succ]
      exact h.bind fun a => ih.bind fun items => selfDelimiting_pure (a :: items)

/-! ### Integers and sequences -/

/-- An integer ends at its first group without the top bit, or is refused. -/
theorem selfDelimiting_groups (start last leading : Nat) :
    SelfDelimiting (groups start last leading) := by
  induction leading with
  | zero =>
      refine selfDelimiting_byte.bind fun b => ?_
      split
      · exact selfDelimiting_pure _
      · exact selfDelimiting_throw _
  | succ leading ih =>
      refine selfDelimiting_byte.bind fun b => ?_
      split
      · exact selfDelimiting_pure _
      · exact ih.bind fun n => selfDelimiting_pure _

/-- The sign of an integer is in its last group and not behind it. -/
theorem selfDelimiting_signedGroups (start last leading : Nat) :
    SelfDelimiting (signedGroups start last leading) := by
  induction leading with
  | zero =>
      refine selfDelimiting_byte.bind fun b => ?_
      dsimp only
      split
      · exact selfDelimiting_pure _
      · exact selfDelimiting_throw _
  | succ leading ih =>
      refine selfDelimiting_byte.bind fun b => ?_
      split
      · exact selfDelimiting_pure _
      · exact ih.bind fun i => selfDelimiting_pure _

/-- The offset at which an integer began is only named by its error. -/
theorem selfDelimiting_unsigned (width : Nat) : SelfDelimiting (unsigned width) :=
  selfDelimiting_position_bind fun start => selfDelimiting_groups start _ _

theorem selfDelimiting_signed (width : Nat) : SelfDelimiting (signed width) :=
  selfDelimiting_position_bind fun start => selfDelimiting_signedGroups start _ _

theorem selfDelimiting_uint32 : SelfDelimiting uint32 :=
  (selfDelimiting_unsigned 32).bind fun _ => selfDelimiting_pure _

theorem selfDelimiting_uint64 : SelfDelimiting uint64 :=
  (selfDelimiting_unsigned 64).bind fun _ => selfDelimiting_pure _

theorem selfDelimiting_int32 : SelfDelimiting int32 :=
  (selfDelimiting_signed 32).bind fun _ => selfDelimiting_pure _

theorem selfDelimiting_int64 : SelfDelimiting int64 :=
  (selfDelimiting_signed 64).bind fun _ => selfDelimiting_pure _

theorem selfDelimiting_word (width : Nat) : SelfDelimiting (word width) :=
  (selfDelimiting_take width).bind fun _ => selfDelimiting_pure _

/-- The number in front of a sequence says where it ends. -/
theorem SelfDelimiting.vector {item : Reader α} (h : SelfDelimiting item) :
    SelfDelimiting (vector item) :=
  selfDelimiting_uint32.bind fun n => h.times n.toNat

end WasmMeter.Reader

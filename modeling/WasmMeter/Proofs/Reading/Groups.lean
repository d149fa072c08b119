import WasmMeter.Proofs.Reading.Failure

/-!
What integers in seven-bit groups are read as. An integer ends at the first byte whose top bit is clear,
and its bytes denote a number by themselves. A reader of a width answers exactly where there is such a
byte, the groups up to it are no more than the width can need and the number that they denote is one of
the width. It fails at the end of the input where that comes too early, and otherwise at the integer.
-/
namespace WasmMeter

namespace Leb128

/-- The top bit says that another group follows. -/
def goesOn (b : UInt8) : Bool := b.toBitVec.msb

/-- The groups of one integer: the last of them is the first whose top bit is clear. -/
inductive IsInteger : List UInt8 → Prop where
  | last {b : UInt8} (ends : goesOn b = false) : IsInteger [b]
  | more {b : UInt8} {rest : List UInt8} (continues : goesOn b = true) (behind : IsInteger rest) :
      IsInteger (b :: rest)

/-- The natural number that groups denote. -/
def toNat : List UInt8 → Nat
  | [] => 0
  | b :: rest => b.toNat % 128 + 128 * toNat rest

/-- The integer that groups denote in two's complement, with seven bits for each group. -/
def toInt (groups : List UInt8) : Int := (BitVec.ofNat (7 * groups.length) (toNat groups)).toInt

theorem goesOn_eq_false_iff {b : UInt8} : goesOn b = false ↔ b.toNat < 128 := by
  rw [goesOn, BitVec.msb_eq_false_iff_two_mul_lt]
  change 2 * b.toNat < 256 ↔ _
  omega

theorem goesOn_eq_true_iff {b : UInt8} : goesOn b = true ↔ 128 ≤ b.toNat := by
  rw [← Bool.not_eq_false, goesOn_eq_false_iff, Nat.not_lt]

theorem IsInteger.ne_nil {groups : List UInt8} (h : IsInteger groups) : groups ≠ [] := by
  cases h <;> exact List.cons_ne_nil _ _

/-- A single group is an integer if it ends one. -/
theorem isInteger_singleton_iff {b : UInt8} : IsInteger [b] ↔ goesOn b = false := by
  constructor
  · intro h
    cases h with
    | last ends => exact ends
    | more _ behind => exact absurd rfl behind.ne_nil
  · exact .last

/-- Behind a group that goes on the integer goes on. -/
theorem isInteger_cons_iff {b : UInt8} {rest : List UInt8} (h : goesOn b = true) :
    IsInteger (b :: rest) ↔ IsInteger rest := by
  constructor
  · intro hb
    cases hb with
    | last ends => rw [h] at ends; cases ends
    | more _ behind => exact behind
  · exact .more h

/-- A group that does not go on is all of its integer. -/
theorem IsInteger.eq_nil_of_cons {b : UInt8} {rest : List UInt8} (h : IsInteger (b :: rest))
    (hb : goesOn b = false) : rest = [] := by
  cases h with
  | last _ => rfl
  | more continues _ => rw [hb] at continues; cases continues

/-- The last group does not go on. -/
theorem IsInteger.all_goesOn {groups : List UInt8} (h : IsInteger groups) :
    groups.all goesOn = false := by
  induction h with
  | last ends => rw [List.all_cons, ends, Bool.false_and]
  | more continues _ ih => rw [List.all_cons, ih, Bool.and_false]

/-- All groups but the last go on. -/
theorem IsInteger.all_goesOn_of_append {first second : List UInt8}
    (h : IsInteger (first ++ second)) (hsecond : second ≠ []) : first.all goesOn = true := by
  induction first with
  | nil => rfl
  | cons b first ih =>
      cases hb : goesOn b with
      | true => rw [List.all_cons, hb, ih ((isInteger_cons_iff hb).1 h), Bool.true_and]
      | false => exact absurd (List.append_eq_nil_iff.1 (h.eq_nil_of_cons hb)).2 hsecond

/-- Each group has seven bits. -/
theorem toNat_lt (groups : List UInt8) : toNat groups < 2 ^ (7 * groups.length) := by
  induction groups with
  | nil => exact Nat.one_pos
  | cons b rest ih =>
      rw [toNat, List.length_cons, Nat.mul_succ, Nat.pow_add]
      omega

/-- The integer is the natural number, less a power of two where the topmost bit is set. -/
theorem toInt_eq (groups : List UInt8) :
    toInt groups = if 2 * toNat groups < 2 ^ (7 * groups.length) then (toNat groups : Int)
      else (toNat groups : Int) - (2 ^ (7 * groups.length) : Nat) := by
  rw [toInt, BitVec.toInt_eq_toNat_cond, BitVec.toNat_ofNat, Nat.mod_eq_of_lt (toNat_lt groups)]

/-- A group that ends an integer has its value in the lower bits, and these are all of it. -/
theorem toNat_singleton {b : UInt8} (h : goesOn b = false) : toNat [b] = b.toNat := by
  have hb := goesOn_eq_false_iff.1 h
  rw [toNat, toNat]
  omega

/-- A last group by itself has seven bits in two's complement. -/
theorem signedGroup_mem {b : UInt8} (h : goesOn b = false) :
    -64 ≤ signedGroup b ∧ signedGroup b < 64 := by
  have hb := goesOn_eq_false_iff.1 h
  unfold signedGroup
  split <;> omega

/-- The last group carries the sign. -/
theorem toInt_singleton {b : UInt8} (h : goesOn b = false) : toInt [b] = signedGroup b := by
  have hb := goesOn_eq_false_iff.1 h
  rw [toInt_eq, toNat_singleton h, signedGroup]
  change (if 2 * b.toNat < 128 then (b.toNat : Int) else b.toNat - 128) = _
  split <;> split <;> omega

/-- Every other group stands below the sign. -/
theorem toInt_cons (b : UInt8) {rest : List UInt8} (h : rest ≠ []) :
    toInt (b :: rest) = (b.toNat % 128 : Nat) + 128 * toInt rest := by
  obtain ⟨half, hhalf⟩ : ∃ half, 2 ^ (7 * rest.length) = 2 * half := by
    have hpos := List.length_pos_iff.2 h
    exact ⟨2 ^ (7 * rest.length - 1), by rw [← Nat.pow_succ']; congr 1; omega⟩
  have hpow : 2 ^ (7 * (b :: rest).length) = 128 * (2 * half) := by
    rw [← hhalf, List.length_cons, Nat.mul_succ, Nat.pow_add, Nat.mul_comm]
  rw [toInt_eq, toInt_eq, hpow, hhalf, toNat]
  split <;> split <;> omega

end Leb128

namespace Reader

open Leb128

variable {α β : Type} {start most : Nat} {denotes : List UInt8 → α → Prop} {r : Reader α}

/-- What is read at a cursor as an integer of at most `most` groups that began at `start`. -/
structure DecodesAt (start most : Nat) (denotes : List UInt8 → α → Prop) (r : Reader α)
    (c : Cursor) : Prop where
  answer : ∀ {a d}, r c = .ok a d ↔ ∃ source, IsInteger source ∧ source.length ≤ most ∧
    denotes source a ∧ c.unread = source ++ d.unread ∧ d.position = c.position + source.length
  failure : ∀ {e d}, r c = .error e d →
    e = if c.remaining < most ∧ c.unread.all goesOn = true
      then .unexpectedEnd (c.position + c.remaining) 1 else .invalidLeb128 start

/-- Nothing left to read is no integer. -/
theorem decodesAt_of_isEmpty {position : Nat} {d : Cursor} (hmost : 1 ≤ most)
    (h : r ⟨[], position⟩ = .error (.unexpectedEnd position 1) d) :
    DecodesAt start most denotes r ⟨[], position⟩ := by
  refine ⟨fun {a d} => ⟨fun hr => ?_, ?_⟩, fun {e d} hr => ?_⟩
  · rw [h] at hr
    cases hr
  · rintro ⟨source, hsource, -, -, hu, -⟩
    exact absurd (List.append_eq_nil_iff.1 hu.symm).1 hsource.ne_nil
  · rw [h] at hr
    cases hr
    rw [if_pos ⟨hmost, List.all_nil⟩]
    rfl

/-- A first byte that ends the integer is all of it. -/
theorem decodesAt_of_ends {b : UInt8} {rest : List UInt8} {position : Nat} {value : α}
    (hmost : 1 ≤ most) (hb : goesOn b = false)
    (h : r ⟨b :: rest, position⟩ = .ok value ⟨rest, position + 1⟩)
    (hdenotes : ∀ {a}, denotes [b] a ↔ value = a) :
    DecodesAt start most denotes r ⟨b :: rest, position⟩ := by
  refine ⟨fun {a d} => ⟨fun hr => ?_, ?_⟩, fun {e d} hr => ?_⟩
  · rw [h] at hr
    cases hr
    exact ⟨[b], .last hb, hmost, hdenotes.2 rfl, rfl, rfl⟩
  · rintro ⟨source, hsource, -, ha, hu, hd⟩
    obtain ⟨x, behind, rfl⟩ := List.exists_cons_of_ne_nil hsource.ne_nil
    obtain ⟨rfl, rfl⟩ : b = x ∧ rest = behind ++ d.unread := by simpa using hu
    obtain rfl := hsource.eq_nil_of_cons hb
    rw [h, hdenotes.1 ha, List.nil_append]
    exact congrArg (fun place => EStateM.Result.ok a (Cursor.mk d.unread place)) hd.symm
  · rw [h] at hr
    cases hr

/-- The last byte that there is room for is refused if it goes on, or if what it denotes does not fit. -/
theorem decodesAt_of_refused {b : UInt8} {rest : List UInt8} {position : Nat} {d : Cursor}
    (h : r ⟨b :: rest, position⟩ = .error (.invalidLeb128 start) d)
    (hdenotes : ∀ {a}, goesOn b = false → ¬denotes [b] a) :
    DecodesAt start 1 denotes r ⟨b :: rest, position⟩ := by
  refine ⟨fun {a d} => ⟨fun hr => ?_, ?_⟩, fun {e d} hr => ?_⟩
  · rw [h] at hr
    cases hr
  · rintro ⟨source, hsource, hlength, ha, hu, -⟩
    obtain ⟨x, behind, rfl⟩ := List.exists_cons_of_ne_nil hsource.ne_nil
    obtain ⟨rfl, -⟩ : b = x ∧ rest = behind ++ d.unread := by simpa using hu
    obtain rfl := List.length_eq_zero_iff.1 (Nat.le_zero.1 (Nat.le_of_succ_le_succ hlength))
    exact absurd ha (hdenotes (isInteger_singleton_iff.1 hsource))
  · rw [h] at hr
    cases hr
    rw [if_neg]
    rintro ⟨hshort, -⟩
    simp [Cursor.remaining] at hshort

/-- A first byte that goes on stands in front of what is read behind it. -/
theorem DecodesAt.more {b : UInt8} {rest : List UInt8} {position : Nat} {inner : Reader α}
    (h : DecodesAt start most (fun source a => denotes (b :: source) a) inner ⟨rest, position + 1⟩)
    (hb : goesOn b = true) (hr : r ⟨b :: rest, position⟩ = inner ⟨rest, position + 1⟩) :
    DecodesAt start (most + 1) denotes r ⟨b :: rest, position⟩ := by
  refine ⟨fun {a d} => ?_, fun {e d} herror => ?_⟩
  · rw [hr, h.answer]
    constructor
    · rintro ⟨source, hsource, hlength, ha, hu, hd⟩
      refine ⟨b :: source, .more hb hsource, Nat.succ_le_succ hlength, ha, congrArg (b :: ·) hu, ?_⟩
      rw [hd, List.length_cons, Nat.add_assoc, Nat.add_comm 1]
    · rintro ⟨source, hsource, hlength, ha, hu, hd⟩
      obtain ⟨x, behind, rfl⟩ := List.exists_cons_of_ne_nil hsource.ne_nil
      obtain ⟨rfl, hrest⟩ : b = x ∧ rest = behind ++ d.unread := by simpa using hu
      have hbehind := (isInteger_cons_iff hb).1 hsource
      refine ⟨behind, hbehind, Nat.le_of_succ_le_succ hlength, ha, hrest, ?_⟩
      rw [hd, List.length_cons, Nat.add_assoc, Nat.add_comm 1]
  · rw [hr] at herror
    rw [h.failure herror]
    simp only [Cursor.remaining, List.length_cons, List.all_cons, hb, Bool.true_and,
      Nat.add_lt_add_iff_right, Nat.add_assoc, Nat.add_comm 1]

/-- Something made of the number is read in the same way. -/
theorem DecodesAt.bind_pure {c : Cursor} {f : α → β} {denotes' : List UInt8 → β → Prop}
    (h : DecodesAt start most denotes r c)
    (hf : ∀ {source b}, IsInteger source → (denotes' source b ↔ ∃ a, denotes source a ∧ f a = b)) :
    DecodesAt start most denotes' (r >>= fun a => pure (f a)) c := by
  refine ⟨fun {b d} => ?_, fun {e d} herror => ?_⟩
  · rw [bind_eq_ok_iff]
    constructor
    · rintro ⟨a, middle, hr, hpure⟩
      obtain ⟨rfl, rfl⟩ := pure_eq_ok_iff.1 hpure
      obtain ⟨source, hsource, hlength, ha, hplace⟩ := h.answer.1 hr
      exact ⟨source, hsource, hlength, (hf hsource).2 ⟨a, ha, rfl⟩, hplace⟩
    · rintro ⟨source, hsource, hlength, hb, hplace⟩
      obtain ⟨a, ha, rfl⟩ := (hf hsource).1 hb
      exact ⟨a, d, h.answer.2 ⟨source, hsource, hlength, ha, hplace⟩, rfl⟩
  · rcases bind_eq_error_iff.1 herror with herror | ⟨a, middle, -, herror⟩
    · exact h.failure herror
    · exact absurd herror pure_ne_error

theorem DecodesAt.congr {c : Cursor} {other : Reader α} (h : DecodesAt start most denotes r c)
    (heq : other c = r c) : DecodesAt start most denotes other c :=
  ⟨heq ▸ h.answer, heq ▸ h.failure⟩

/-- An integer is read without the bytes behind it, unless it is one that they would have to end. -/
theorem DecodesAt.ok_of_append {c d : Cursor} {a : α} {rest : List UInt8}
    (hlonger : DecodesAt start most denotes r ⟨c.unread ++ rest, c.position⟩)
    (h : DecodesAt start most denotes r c)
    (hcut : ¬(c.remaining < most ∧ c.unread.all goesOn = true))
    (hr : r ⟨c.unread ++ rest, c.position⟩ = .ok a d) : ∃ d, r c = .ok a d := by
  obtain ⟨source, hsource, hlength, ha, hu, -⟩ := hlonger.answer.1 hr
  have hwithin : ∃ left, c.unread = source ++ left := by
    rcases List.append_eq_append_iff.1 hu with ⟨more, rfl, -⟩ | ⟨left, hleft, -⟩
    · cases more with
      | nil => exact ⟨[], by rw [List.append_nil, List.append_nil]⟩
      | cons b more =>
          rw [List.length_append, List.length_cons] at hlength
          have hshort : c.remaining < most := by
            rw [Cursor.remaining]
            omega
          exact absurd ⟨hshort, hsource.all_goesOn_of_append (List.cons_ne_nil b more)⟩ hcut
    · exact ⟨left, hleft⟩
  obtain ⟨left, hleft⟩ := hwithin
  exact ⟨⟨left, c.position + source.length⟩,
    h.answer.2 ⟨source, hsource, hlength, ha, hleft, rfl⟩⟩

/-- The readers, one for each number of groups that may stand in front of the last one, are the turns of
a loop. A byte that ends the integer gives `single`, if it `fits` where it is the last one that may come;
any other adds itself to what is read behind it by `join`. What is denoted is put together likewise. -/
structure IsLoop (start : Nat) (r : Nat → Reader α) (denotes : Nat → List UInt8 → α → Prop)
    (fits : UInt8 → Prop) (single : UInt8 → α) (join : UInt8 → α → α) : Prop where
  isEmpty : ∀ leading position,
    r leading ⟨[], position⟩ = .error (.unexpectedEnd position 1) ⟨[], position⟩
  fitting : ∀ {b rest position}, fits b →
    r 0 ⟨b :: rest, position⟩ = .ok (single b) ⟨rest, position + 1⟩
  unfitting : ∀ {b rest position}, ¬fits b →
    r 0 ⟨b :: rest, position⟩ = .error (.invalidLeb128 start) ⟨rest, position + 1⟩
  ends : ∀ {leading b rest position}, goesOn b = false →
    r (leading + 1) ⟨b :: rest, position⟩ = .ok (single b) ⟨rest, position + 1⟩
  continues : ∀ {leading b rest position}, goesOn b = true →
    r (leading + 1) ⟨b :: rest, position⟩ =
      (r leading >>= fun x => pure (join b x)) ⟨rest, position + 1⟩
  goesOn_of_fits : ∀ {b}, fits b → goesOn b = false
  denotes_last : ∀ {b a}, goesOn b = false → (denotes 0 [b] a ↔ fits b ∧ single b = a)
  denotes_single : ∀ {leading b a}, goesOn b = false →
    (denotes (leading + 1) [b] a ↔ single b = a)
  denotes_cons : ∀ {leading b source a}, goesOn b = true → source ≠ [] →
    (denotes (leading + 1) (b :: source) a ↔ ∃ x, denotes leading source x ∧ join b x = a)

/-- The induction is on the groups that may still come in front of the last one. -/
theorem IsLoop.decodesAt {r : Nat → Reader α} {denotes : Nat → List UInt8 → α → Prop}
    {fits : UInt8 → Prop} {single : UInt8 → α} {join : UInt8 → α → α}
    (h : IsLoop start r denotes fits single join) (leading : Nat) (c : Cursor) :
    DecodesAt start (leading + 1) (denotes leading) (r leading) c := by
  induction leading generalizing c with
  | zero =>
      obtain ⟨unread, position⟩ := c
      cases unread with
      | nil => exact decodesAt_of_isEmpty (Nat.le_refl 1) (h.isEmpty 0 position)
      | cons b rest =>
          by_cases hfits : fits b
          · have hb := h.goesOn_of_fits hfits
            exact decodesAt_of_ends (Nat.le_refl 1) hb (h.fitting hfits)
              ((h.denotes_last hb).trans (and_iff_right hfits))
          · exact decodesAt_of_refused (h.unfitting hfits) fun hb ha =>
              hfits ((h.denotes_last hb).1 ha).1
  | succ leading ih =>
      have hmost : 1 ≤ leading + 1 + 1 := Nat.succ_le_succ (Nat.zero_le _)
      obtain ⟨unread, position⟩ := c
      cases unread with
      | nil => exact decodesAt_of_isEmpty hmost (h.isEmpty (leading + 1) position)
      | cons b rest =>
          cases hb : goesOn b with
          | true =>
              exact ((ih _).bind_pure fun hsource => h.denotes_cons hb hsource.ne_nil).more hb
                (h.continues hb)
          | false => exact decodesAt_of_ends hmost hb (h.ends hb) (h.denotes_single hb)

/-- A byte that is there is taken, and the rest is read behind it. -/
theorem bind_byte_cons (f : UInt8 → Reader α) (b : UInt8) (rest : List UInt8) (position : Nat) :
    (byte >>= f) ⟨b :: rest, position⟩ = f b ⟨rest, position + 1⟩ :=
  rfl

/-- The last group that may come has to fit in the bits that are left for it. -/
theorem groups_zero (start last : Nat) :
    groups start last 0 = (do
      let b ← byte
      if b.toNat < 2 ^ last then return b.toNat
      else throw (.invalidLeb128 start)) :=
  rfl

/-- Any other group may end the integer, or has the rest of it behind. -/
theorem groups_succ (start last leading : Nat) :
    groups start last (leading + 1) = (do
      let b ← byte
      if b.toNat < 128 then return b.toNat
      else return b.toNat - 128 + 128 * (← groups start last leading)) :=
  rfl

theorem groups_of_isEmpty (start last leading position : Nat) :
    groups start last leading ⟨[], position⟩ =
      .error (.unexpectedEnd position 1) ⟨[], position⟩ := by
  cases leading <;> rfl

/-- Only the last of all groups that may come can be too large. -/
theorem isLoop_groups (start : Nat) {last : Nat} (hlast : last ≤ 7) :
    IsLoop start (groups start last)
      (fun leading source n => toNat source < 2 ^ (7 * leading + last) ∧ toNat source = n)
      (fun b => b.toNat < 2 ^ last) (fun b => b.toNat) (fun b n => b.toNat - 128 + 128 * n) where
  isEmpty := groups_of_isEmpty start last
  fitting hfits := by
    rw [groups_zero, bind_byte_cons, if_pos hfits]
    rfl
  unfitting hfits := by
    rw [groups_zero, bind_byte_cons, if_neg hfits]
    rfl
  ends hb := by
    rw [groups_succ, bind_byte_cons, if_pos (goesOn_eq_false_iff.1 hb)]
    rfl
  continues hb := by
    rw [groups_succ, bind_byte_cons, if_neg (Nat.not_lt.2 (goesOn_eq_true_iff.1 hb))]
  goesOn_of_fits hfits := by
    have hle : 2 ^ last ≤ 2 ^ 7 := Nat.pow_le_pow_right (by decide) hlast
    exact goesOn_eq_false_iff.2 (by omega)
  denotes_last hb := by rw [toNat_singleton hb, Nat.mul_zero, Nat.zero_add]
  denotes_single {leading b a} hb := by
    have hle : 2 ^ 7 ≤ 2 ^ (7 * (leading + 1) + last) :=
      Nat.pow_le_pow_right (by decide) (by omega)
    have hsmall := goesOn_eq_false_iff.1 hb
    rw [toNat_singleton hb]
    exact and_iff_right (by omega)
  denotes_cons {leading b source a} hb _ := by
    have hlarge := goesOn_eq_true_iff.1 hb
    have hbyte := b.toNat_lt
    rw [Leb128.toNat, show 7 * (leading + 1) + last = 7 + (7 * leading + last) by omega,
      Nat.pow_add]
    constructor
    · rintro ⟨hlt, rfl⟩
      exact ⟨toNat source, ⟨by omega, rfl⟩, by omega⟩
    · rintro ⟨_, ⟨hlt, rfl⟩, rfl⟩
      omega

theorem signedGroups_zero (start last : Nat) :
    signedGroups start last 0 = (do
      let b ← byte
      let value := signedGroup b
      if b.toNat < 128 ∧ -2 ^ (last - 1) ≤ value ∧ value < 2 ^ (last - 1) then return value
      else throw (.invalidLeb128 start)) :=
  rfl

theorem signedGroups_succ (start last leading : Nat) :
    signedGroups start last (leading + 1) = (do
      let b ← byte
      if b.toNat < 128 then return signedGroup b
      else return (b.toNat - 128 : Int) + 128 * (← signedGroups start last leading)) :=
  rfl

theorem signedGroups_of_isEmpty (start last leading position : Nat) :
    signedGroups start last leading ⟨[], position⟩ =
      .error (.unexpectedEnd position 1) ⟨[], position⟩ := by
  cases leading <;> rfl

/-- The same in two's complement: the last group has to repeat the sign in the bits that it has beyond
the width. -/
theorem isLoop_signedGroups (start : Nat) {last : Nat} (hpos : 1 ≤ last) :
    IsLoop start (signedGroups start last)
      (fun leading source i => (-2 ^ (7 * leading + last - 1) ≤ toInt source ∧
        toInt source < 2 ^ (7 * leading + last - 1)) ∧ toInt source = i)
      (fun b => b.toNat < 128 ∧ -2 ^ (last - 1) ≤ signedGroup b ∧ signedGroup b < 2 ^ (last - 1))
      signedGroup (fun b i => (b.toNat - 128 : Int) + 128 * i) where
  isEmpty := signedGroups_of_isEmpty start last
  fitting hfits := by
    rw [signedGroups_zero, bind_byte_cons, if_pos hfits]
    rfl
  unfitting hfits := by
    rw [signedGroups_zero, bind_byte_cons, if_neg hfits]
    rfl
  ends hb := by
    rw [signedGroups_succ, bind_byte_cons, if_pos (goesOn_eq_false_iff.1 hb)]
    rfl
  continues hb := by
    rw [signedGroups_succ, bind_byte_cons, if_neg (Nat.not_lt.2 (goesOn_eq_true_iff.1 hb))]
  goesOn_of_fits hfits := goesOn_eq_false_iff.2 hfits.1
  denotes_last hb := by
    rw [toInt_singleton hb, Nat.mul_zero, Nat.zero_add]
    exact and_congr_left fun _ => (and_iff_right (goesOn_eq_false_iff.1 hb)).symm
  denotes_single {leading b a} hb := by
    have hle : (2 : Int) ^ 6 ≤ 2 ^ (7 * (leading + 1) + last - 1) := by
      exact_mod_cast Nat.pow_le_pow_right (n := 2) (by decide) (by omega)
    have hsmall := signedGroup_mem hb
    rw [toInt_singleton hb]
    exact and_iff_right (by omega)
  denotes_cons {leading b source a} hb hne := by
    have hlarge := goesOn_eq_true_iff.1 hb
    have hbyte := b.toNat_lt
    rw [toInt_cons b hne,
      show 7 * (leading + 1) + last - 1 = 7 + (7 * leading + last - 1) by omega, Int.pow_add]
    constructor
    · rintro ⟨hrange, rfl⟩
      exact ⟨toInt source, ⟨by omega, rfl⟩, by omega⟩
    · rintro ⟨_, ⟨hrange, rfl⟩, rfl⟩
      omega

/-! ### Integers of a width -/

/-- What is read as an integer of a width: a source of at most as many groups as the width can need. -/
def Decodes (width : Nat) (denotes : List UInt8 → α → Prop) (r : Reader α) : Prop :=
  ∀ c : Cursor, DecodesAt c.position ((width + 6) / 7) denotes r c

/-- The groups that a number of a width may have: a seventh of the width, rounded up. -/
theorem leading_add_one {width : Nat} (hw : 1 ≤ width) : leading width + 1 = (width + 6) / 7 := by
  unfold leading
  omega

/-- The bits that are left for the last group make up the width, so the bound on the last group is the
bound on the number. -/
theorem decodes_unsigned {width : Nat} (hw : 1 ≤ width) :
    Decodes width (fun source n => toNat source < 2 ^ width ∧ toNat source = n)
      (unsigned width) := by
  intro c
  obtain ⟨hsum, -, hlast⟩ := leading_lastBits hw
  have h := (isLoop_groups c.position hlast).decodesAt (leading width) c
  rw [leading_add_one hw, hsum] at h
  exact h.congr rfl

/-- The same for numbers with a sign, whose bounds are half as wide on either side. -/
theorem decodes_signed {width : Nat} (hw : 1 ≤ width) :
    Decodes width (fun source i => (-2 ^ (width - 1) ≤ toInt source ∧
      toInt source < 2 ^ (width - 1)) ∧ toInt source = i) (signed width) := by
  intro c
  obtain ⟨hsum, hpos, -⟩ := leading_lastBits hw
  have h := (isLoop_signedGroups c.position hpos).decodesAt (leading width) c
  rw [leading_add_one hw, hsum] at h
  exact h.congr rfl

/-- A number that is given another form is read in the same way. -/
theorem Decodes.bind_pure {width : Nat} {f : α → β} {denotes' : List UInt8 → β → Prop}
    (h : Decodes width denotes r)
    (hf : ∀ {source b}, denotes' source b ↔ ∃ a, denotes source a ∧ f a = b) :
    Decodes width denotes' (r >>= fun a => pure (f a)) :=
  fun c => (h c).bind_pure fun _ => hf

/-- Unsigned numbers of 32 bits: at most five groups, of a number below the bound. -/
theorem decodes_uint32 :
    Decodes 32 (fun source n => toNat source < 2 ^ 32 ∧ toNat source = n.toNat) uint32 := by
  refine (decodes_unsigned (by decide)).bind_pure fun {source n} => ⟨?_, ?_⟩
  · rintro ⟨hlt, hn⟩
    exact ⟨_, ⟨hlt, rfl⟩, hn ▸ UInt32.ofNat_toNat⟩
  · rintro ⟨_, ⟨hlt, rfl⟩, rfl⟩
    exact ⟨hlt, (UInt32.toNat_ofNat_of_lt' hlt).symm⟩

theorem decodes_uint64 :
    Decodes 64 (fun source n => toNat source < 2 ^ 64 ∧ toNat source = n.toNat) uint64 := by
  refine (decodes_unsigned (by decide)).bind_pure fun {source n} => ⟨?_, ?_⟩
  · rintro ⟨hlt, hn⟩
    exact ⟨_, ⟨hlt, rfl⟩, hn ▸ UInt64.ofNat_toNat⟩
  · rintro ⟨_, ⟨hlt, rfl⟩, rfl⟩
    exact ⟨hlt, (UInt64.toNat_ofNat_of_lt' hlt).symm⟩

theorem decodes_int32 :
    Decodes 32 (fun source i => (-2 ^ 31 ≤ toInt source ∧ toInt source < 2 ^ 31) ∧
      toInt source = i.toInt) int32 := by
  refine (decodes_signed (by decide)).bind_pure fun {source i} => ⟨?_, ?_⟩
  · rintro ⟨hrange, hi⟩
    exact ⟨_, ⟨hrange, rfl⟩, hi ▸ Int32.ofInt_toInt i⟩
  · rintro ⟨_, ⟨hrange, rfl⟩, rfl⟩
    exact ⟨hrange, (Int32.toInt_ofInt_of_le hrange.1 hrange.2).symm⟩

theorem decodes_int64 :
    Decodes 64 (fun source i => (-2 ^ 63 ≤ toInt source ∧ toInt source < 2 ^ 63) ∧
      toInt source = i.toInt) int64 := by
  refine (decodes_signed (by decide)).bind_pure fun {source i} => ⟨?_, ?_⟩
  · rintro ⟨hrange, hi⟩
    exact ⟨_, ⟨hrange, rfl⟩, hi ▸ Int64.ofInt_toInt i⟩
  · rintro ⟨_, ⟨hrange, rfl⟩, rfl⟩
    exact ⟨hrange, (Int64.toInt_ofInt_of_le hrange.1 hrange.2).symm⟩

/-- An integer that is cut short is missed where the input ends. -/
theorem Decodes.take {width : Nat} (h : Decodes width denotes r) {source : List UInt8} {a : α}
    (hr : Reads r source a) {n : Nat} (hn : n < source.length) (position : Nat) :
    ∃ d, r ⟨source.take n, position⟩ = .error (.unexpectedEnd (position + n) 1) d := by
  obtain ⟨whole, hwhole, hlength, -, hu, -⟩ := (h _).answer.1 (hr [] position)
  obtain rfl : source = whole := List.append_cancel_right hu
  have hgoing : (source.take n).all goesOn = true := by
    rw [← List.take_append_drop n source] at hwhole
    exact hwhole.all_goesOn_of_append fun hnil => Nat.not_le.2 hn (List.drop_eq_nil_iff.1 hnil)
  have hn' : (source.take n).length = n := List.length_take_of_le (Nat.le_of_lt hn)
  cases hcut : r ⟨source.take n, position⟩ with
  | ok b d =>
      obtain ⟨part, hpart, -, -, hu', -⟩ := (h _).answer.1 hcut
      rw [show source.take n = part ++ d.unread from hu', List.all_append, hpart.all_goesOn] at hgoing
      cases hgoing
  | error e d =>
      have he := (h _).failure hcut
      rw [if_pos ⟨by rw [Cursor.remaining, hn']; omega, hgoing⟩, Cursor.remaining, hn'] at he
      exact ⟨d, congrArg (EStateM.Result.error · d) he⟩

/-- The readers of integers take exactly what denotes a number of their width. For each of them and at
every cursor: there is an answer exactly if some byte has its top bit clear, the bytes up to the first
such one are at most `⌈width / 7⌉`, and they denote a number in the range of the width, in two's
complement where the integer has a sign; the answer is that number, and the cursor stands behind those
bytes. Otherwise the error is that the input ends, at its end, if fewer than `⌈width / 7⌉` bytes are left
and all of them have the top bit set, and else that the integer is invalid, where it begins. -/
theorem integers_decoded :
    Decodes 32 (fun source n => toNat source < 2 ^ 32 ∧ toNat source = n.toNat) uint32 ∧
      Decodes 64 (fun source n => toNat source < 2 ^ 64 ∧ toNat source = n.toNat) uint64 ∧
      Decodes 32 (fun source i => (-2 ^ 31 ≤ toInt source ∧ toInt source < 2 ^ 31) ∧
        toInt source = i.toInt) int32 ∧
      Decodes 33 (fun source i => (-2 ^ 32 ≤ toInt source ∧ toInt source < 2 ^ 32) ∧
        toInt source = i) (signed 33) ∧
      Decodes 64 (fun source i => (-2 ^ 63 ≤ toInt source ∧ toInt source < 2 ^ 63) ∧
        toInt source = i.toInt) int64 :=
  ⟨decodes_uint32, decodes_uint64, decodes_int32, decodes_signed (by decide), decodes_int64⟩

/-- The last of five groups has to repeat the sign in the three bits that it has beyond the width. -/
example : int32.answer (.ofBytes [0x80, 0x80, 0x80, 0x80, 0x78]) = .ok (-2 ^ 31) ∧
    int32.answer (.ofBytes [0x80, 0x80, 0x80, 0x80, 0x70]) = .error (.invalidLeb128 0) :=
  ⟨rfl, rfl⟩

end Reader

end WasmMeter

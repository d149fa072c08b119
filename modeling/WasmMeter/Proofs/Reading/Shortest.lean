import WasmMeter.Proofs.Reading.Groups

/-!
Written integers are the shortest that are read. Whatever bytes a number is read from, it is not written
in more, and if in as many then as the same bytes: groups that are written as well are the same from the
first on, and a number that is written in one group leaves nothing to those that were read behind it.
-/
namespace WasmMeter

namespace Leb128

/-- There are fewer bytes than in the source, unless they are the source. -/
structure Shortens (bytes source : List UInt8) : Prop where
  length_le : bytes.length ≤ source.length
  eq_of_length : source.length = bytes.length → source = bytes

theorem shortens_refl (bytes : List UInt8) : Shortens bytes bytes := ⟨Nat.le_refl _, fun _ => rfl⟩

/-- What is shorter, or the same, is so behind a common first group. -/
theorem Shortens.cons {bytes source : List UInt8} (h : Shortens bytes source) (b : UInt8) :
    Shortens (b :: bytes) (b :: source) :=
  ⟨Nat.succ_le_succ h.length_le, fun hl => congrArg (b :: ·) (h.eq_of_length (Nat.succ.inj hl))⟩

/-- A single byte is less than two. -/
theorem shortens_singleton (x b : UInt8) {rest : List UInt8} (h : rest ≠ []) :
    Shortens [x] (b :: rest) := by
  have hpos := List.length_pos_iff.2 h
  refine ⟨Nat.succ_le_succ (Nat.zero_le _), fun hl => ?_⟩
  rw [List.length_cons, List.length_singleton] at hl
  omega

variable {source : List UInt8}

/-- The induction is on the groups that are read. Those behind the first denote what is left to write
behind it, unless there is nothing left. -/
theorem IsInteger.shortens_ofNat (h : IsInteger source) : Shortens (ofNat (toNat source)) source := by
  induction h with
  | @last b ends =>
      have hb := goesOn_eq_false_iff.1 ends
      rw [toNat_singleton ends, ofNat_of_lt hb, show b.toNat.toUInt8 = b from UInt8.ofNat_toNat]
      exact shortens_refl [b]
  | @more b rest continues behind ih =>
      have hlarge := goesOn_eq_true_iff.1 continues
      have hbyte := b.toNat_lt
      by_cases hsmall : toNat (b :: rest) < 128
      · rw [ofNat_of_lt hsmall]
        exact shortens_singleton _ b behind.ne_nil
      · have hlow : (toNat (b :: rest) % 128 + 128).toUInt8 = b := by
          refine UInt8.toNat_inj.1 ?_
          rw [toNat_toUInt8_of_lt (by omega), toNat]
          omega
        have hhigh : toNat (b :: rest) / 128 = toNat rest := by
          rw [toNat]
          omega
        rw [ofNat_of_le (Nat.not_lt.1 hsmall), hlow, hhigh]
        exact ih.cons b

/-- Two's complement does not need more groups than were there: groups that only repeat the sign are
left out, and nothing else is. -/
theorem IsInteger.shortens_ofInt (h : IsInteger source) : Shortens (ofInt (toInt source)) source := by
  induction h with
  | @last b ends =>
      have hb := goesOn_eq_false_iff.1 ends
      have hgroup : ((signedGroup b) % 128).toNat.toUInt8 = b := by
        refine UInt8.toNat_inj.1 ?_
        rw [toNat_toUInt8_of_lt (by omega), signedGroup]
        split <;> omega
      rw [toInt_singleton ends, ofInt_of_mem (signedGroup_mem ends), hgroup]
      exact shortens_refl [b]
  | @more b rest continues behind ih =>
      have hlarge := goesOn_eq_true_iff.1 continues
      have hbyte := b.toNat_lt
      have hvalue := toInt_cons b behind.ne_nil
      by_cases hsmall : -64 ≤ toInt (b :: rest) ∧ toInt (b :: rest) < 64
      · rw [ofInt_of_mem hsmall]
        exact shortens_singleton _ b behind.ne_nil
      · have hlow : ((toInt (b :: rest) % 128).toNat + 128).toUInt8 = b := by
          refine UInt8.toNat_inj.1 ?_
          rw [toNat_toUInt8_of_lt (by omega)]
          omega
        have hhigh : toInt (b :: rest) / 128 = toInt rest := by omega
        rw [ofInt_of_not_mem hsmall, hlow, hhigh]
        exact ih.cons b

end Leb128

namespace Reader

open Leb128

variable {α : Type} {width : Nat} {denotes : List UInt8 → α → Prop} {r : Reader α}
  {bytes : α → List UInt8}

/-- A writer for a reader: what is written is read back, is shorter than any other bytes that are read as
the same value, and is not longer than a value of the width needs. -/
structure WrittenShortest (width : Nat) (bytes : α → List UInt8) (r : Reader α) : Prop where
  reads : ∀ a, Reads r (bytes a) a
  shortens : ∀ {c a d}, r c = .ok a d →
    ∃ source, c.unread = source ++ d.unread ∧ Shortens (bytes a) source
  length_le : ∀ a, (bytes a).length ≤ (width + 6) / 7

/-- What is read of a source is written in no more groups than it, so a form that is read back is the
shortest. -/
theorem Decodes.writtenShortest (h : Decodes width denotes r) (hr : ∀ a, Reads r (bytes a) a)
    (hs : ∀ {source a}, IsInteger source → denotes source a → Shortens (bytes a) source) :
    WrittenShortest width bytes r := by
  refine ⟨hr, fun {c a d} hok => ?_, fun a => ?_⟩
  · obtain ⟨source, hsource, -, ha, hu, -⟩ := (h c).answer.1 hok
    exact ⟨source, hu, hs hsource ha⟩
  · obtain ⟨source, -, hlength, -, hu, -⟩ := (h _).answer.1 (hr a [] 0)
    obtain rfl : bytes a = source := List.append_cancel_right hu
    exact hlength

/-- What a number is written as is the shortest of all that is read as it. -/
theorem writtenShortest_uint32 : WrittenShortest 32 Bytes.ofUInt32 uint32 := by
  refine decodes_uint32.writtenShortest reads_uint32 ?_
  rintro source n hsource ⟨-, hn⟩
  rw [Bytes.ofUInt32, ← hn]
  exact hsource.shortens_ofNat

theorem writtenShortest_uint64 : WrittenShortest 64 Bytes.ofUInt64 uint64 := by
  refine decodes_uint64.writtenShortest reads_uint64 ?_
  rintro source n hsource ⟨-, hn⟩
  rw [Bytes.ofUInt64, ← hn]
  exact hsource.shortens_ofNat

/-- The signed widths likewise, in two's complement. -/
theorem writtenShortest_int32 : WrittenShortest 32 Bytes.ofInt32 int32 := by
  refine decodes_int32.writtenShortest reads_int32 ?_
  rintro source i hsource ⟨-, hi⟩
  rw [Bytes.ofInt32, ← hi]
  exact hsource.shortens_ofInt

theorem writtenShortest_int64 : WrittenShortest 64 Bytes.ofInt64 int64 := by
  refine decodes_int64.writtenShortest reads_int64 ?_
  rintro source i hsource ⟨-, hi⟩
  rw [Bytes.ofInt64, ← hi]
  exact hsource.shortens_ofInt

/-- The writers of integers give the one shortest encoding. What is written for a value is read as that
value by the reader of the same width, with whatever stands behind it left unread; whatever else is read
as the value is longer; and there are at most `⌈width / 7⌉` bytes. A natural number of 32 bits that is
written as an integer of 64 bits is read back as one of 33 bits. -/
theorem integers_written :
    WrittenShortest 32 Bytes.ofUInt32 uint32 ∧ WrittenShortest 64 Bytes.ofUInt64 uint64 ∧
      WrittenShortest 32 Bytes.ofInt32 int32 ∧ WrittenShortest 64 Bytes.ofInt64 int64 ∧
      ∀ n : UInt32, Reads (signed 33) (Bytes.ofInt64 (.ofInt n.toNat)) n.toNat := by
  refine ⟨writtenShortest_uint32, writtenShortest_uint64, writtenShortest_int32,
    writtenShortest_int64, fun n => ?_⟩
  have hn := n.toNat_lt
  have hwide : (Int64.ofInt n.toNat).toInt = n.toNat :=
    Int64.toInt_ofInt_of_le (by omega) (by omega)
  rw [Bytes.ofInt64, hwide]
  exact reads_signed 33 (by decide) ⟨by omega, by omega⟩

end Reader

end WasmMeter

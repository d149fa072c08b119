import WasmMeter.Proofs.Module.RoundTrip
import WasmMeter.Proofs.Reading.Groups

/-!
What is left of a module that is cut short. The input is read up to the cut, so the sections in front
of it are read as before; behind the header a cut goes unnoticed only where a section ends. Anywhere
else it goes through a frame, and that frame is an error of its own kind: its length is missing, or it
exceeds the bytes that are left.
-/
namespace WasmMeter

open Reader

/-- Why a section with contents between the bounds is refused if the input ends at `n`, in front of
the last bound. -/
def SectionKind.cutAt (kind : SectionKind) (first last n : Nat) : Error :=
  kind.malformed (if n < first then .missingSize else .sizeExceedsInput (last - first)) (min n first)

namespace Reader

theorem sectionContents_take (kind : SectionKind) {size contents : List UInt8} (hfits : contents.length < 2 ^ 32)
    (hsize : Reads uint32 size contents.length.toUInt32) {n : Nat}
    (hn : n < (size ++ contents).length) (start : Nat) :
    ∃ d, sectionContents kind ⟨(size ++ contents).take n, start⟩ =
      .error (kind.cutAt (start + size.length) (start + size.length + contents.length) (start + n))
        d := by
  unfold sectionContents SectionKind.cutAt
  by_cases hcut : n < size.length
  · obtain ⟨d, hd⟩ := decodes_uint32.take hsize hcut start
    have htake : (size ++ contents).take n = size.take n :=
      List.take_append_of_le_length (Nat.le_of_lt hcut)
    rw [← htake] at hd
    rw [if_pos (by omega), Nat.min_eq_left (by omega)]
    exact ⟨d, bind_eq_error_iff.2 (.inl (mapEnd_eq_error_iff.2 ⟨_, hd, rfl⟩))⟩
  · have htake : (size ++ contents).take n = size ++ contents.take (n - size.length) := by
      rw [List.take_append, List.take_of_length_le (by omega)]
    have hlength : contents.length.toUInt32.toNat = contents.length :=
      UInt32.toNat_ofNat_of_lt' hfits
    have hleft : (contents.take (n - size.length)).length < contents.length := by
      rw [List.length_append] at hn
      rw [List.length_take]
      omega
    have hread : mapEnd (kind.malformed .missingSize) uint32 ⟨(size ++ contents).take n, start⟩ =
        .ok contents.length.toUInt32 ⟨contents.take (n - size.length), start + size.length⟩ :=
      mapEnd_eq_ok_iff.2 (hsize.run htake)
    rw [if_neg (by omega), Nat.min_eq_right (by omega), Nat.add_sub_cancel_left, bind_of_ok hread,
      position_bind, hlength]
    exact ⟨_, bind_eq_error_iff.2 (.inl (mapEnd_eq_error_iff.2
      ⟨_, window_eq_error_iff.2 ⟨hleft, rfl, rfl⟩, rfl⟩))⟩

/-- A frame of a kind that may follow is missed where it is cut. -/
theorem nextSection_take {p : Module.Progress} {next : Option Nat} {s : Section} {start n : Nat}
    (hrank : Module.nextRank? p.rank s.kind = some next) (hframe : s.IsReadAt start)
    (hpos : 0 < n) (hn : n < s.source.length) :
    ∃ first d, s.bounds? = some (first, start + s.source.length) ∧
      nextSection p ⟨s.source.take n, start⟩ =
        .error (s.kind.cutAt first (start + s.source.length) (start + n)) d := by
  obtain ⟨size, contents, hfits, hsize, hsource, -, hbounds, -⟩ := hframe.bounds
  obtain ⟨n, rfl⟩ : ∃ k, n = k + 1 := ⟨n - 1, by omega⟩
  have hlength : start + s.source.length = start + 1 + size.length + contents.length := by
    rw [hsource, List.length_cons, List.length_append]
    omega
  rw [hsource, List.length_cons, Nat.succ_lt_succ_iff] at hn
  obtain ⟨d, hd⟩ := sectionContents_take s.kind hfits hsize hn (start + 1)
  rw [Nat.add_assoc start 1 n, Nat.add_comm 1 n] at hd
  refine ⟨_, d, by rw [hbounds, hlength], ?_⟩
  rw [hlength, hsource, List.take_succ_cons, nextSection, position_bind]
  refine bind_eq_error_iff.2 (.inl (withSource_eq_error_iff.2 ?_))
  have hkind : sectionKind ⟨s.kind.toByte :: (size ++ contents).take n, start⟩ =
      .ok s.kind ⟨(size ++ contents).take n, start + 1⟩ :=
    sectionKind_eq_ok_iff.2 ⟨rfl, rfl⟩
  rw [bind_of_ok hkind, hrank]
  exact bind_eq_error_iff.2 (.inl hd)

end Reader

/-- The bounds of a section end where its source does. -/
theorem Section.IsReadAt.exists_bounds {start : Nat} {s : Section} (h : s.IsReadAt start) :
    ∃ first, start < first ∧ first ≤ start + s.source.length ∧
      s.bounds? = some (first, start + s.source.length) := by
  obtain ⟨size, contents, -, -, hsource, -, hbounds, -⟩ := h.bounds
  have hlength : start + s.source.length = start + 1 + size.length + contents.length := by
    rw [hsource, List.length_cons, List.length_append]
    omega
  rw [hlength]
  exact ⟨_, by omega, by omega, hbounds⟩

namespace Module

/-- The loop comes behind the frames in front, whatever stands there. -/
theorem whileUnread_append_of_frames {rank : Option Nat} {start : Nat} {before after : List Section}
    (h : Frames rank start (before ++ after)) (done : List Section) (rest : List UInt8) :
    ∃ next, Frames next (start + (before.flatMap Section.source).length) after ∧
      whileUnread (Sum.inl <$> nextSection ·) (fun p => return (⟨p.done.reverse⟩ : Module))
        ⟨done, rank⟩ ⟨before.flatMap Section.source ++ rest, start⟩ =
      whileUnread (Sum.inl <$> nextSection ·) (fun p => return (⟨p.done.reverse⟩ : Module))
        ⟨before.reverse ++ done, next⟩
        ⟨rest, start + (before.flatMap Section.source).length⟩ := by
  induction before generalizing rank start done with
  | nil => exact ⟨rank, h, rfl⟩
  | cons s before ih =>
      cases h with
      | cons follows frame frames =>
          obtain ⟨next, hframes, hloop⟩ := ih frames (s :: done)
          have hne : (Cursor.mk ((s :: before).flatMap Section.source ++ rest) start).isEmpty =
              false := by
            rw [List.flatMap_cons, List.append_assoc]
            exact isEmpty_append_of_ne_nil frame.source_ne_nil _ start
          have hstep : nextSection ⟨done, rank⟩
              ⟨s.source ++ (before.flatMap Section.source ++ rest), start⟩ = _ :=
            nextSection_of_frame follows frame _
          refine ⟨next, ?_, ?_⟩
          · rw [List.flatMap_cons, List.length_append, ← Nat.add_assoc]
            exact hframes
          · rw [whileUnread_eq progresses_nextSection hne]
            rw [List.flatMap_cons, List.append_assoc,
              map_eq_ok_iff.2 ⟨_, hstep, rfl⟩]
            rw [List.length_append, ← Nat.add_assoc, List.reverse_cons, List.append_assoc]
            exact hloop

theorem Frames.of_append {rank : Option Nat} {start : Nat} {before after : List Section}
    (h : Frames rank start (before ++ after)) : Frames rank start before := by
  induction before generalizing rank start with
  | nil => exact .nil
  | cons s before ih =>
      cases h with
      | cons follows frame frames => exact .cons follows frame (ih frames)

/-- The bounds of sections that are read one behind another. -/
theorem Frames.exists_bounds {rank : Option Nat} {start : Nat} {sections : List Section}
    (h : Frames rank start sections) {s : Section} (hs : s ∈ sections) :
    ∃ first last, s.bounds? = some (first, last) ∧ start < last ∧
      last ≤ start + (sections.flatMap Section.source).length := by
  obtain ⟨before, after, rfl⟩ := List.append_of_mem hs
  obtain ⟨first, hfirst, hle, hbounds⟩ := h.isReadAt.exists_bounds
  refine ⟨first, _, hbounds, by omega, ?_⟩
  rw [List.flatMap_append, List.flatMap_cons]
  simp only [List.length_append]
  omega

/-- Every place in front of the end of some sections is at the start of one of them or within it. -/
theorem exists_append_of_lt {sections : List Section} {n : Nat}
    (h : n < (sections.flatMap Section.source).length) :
    ∃ before s after k, sections = before ++ s :: after ∧
      n = (before.flatMap Section.source).length + k ∧ k < s.source.length := by
  induction sections generalizing n with
  | nil => exact absurd h (Nat.not_lt_zero n)
  | cons s sections ih =>
      by_cases hn : n < s.source.length
      · exact ⟨[], s, sections, n, rfl, (Nat.zero_add n).symm, hn⟩
      · rw [List.flatMap_cons, List.length_append] at h
        obtain ⟨before, t, after, k, rfl, hk, hlt⟩ := ih (n := n - s.source.length) (by omega)
        refine ⟨s :: before, t, after, k, rfl, ?_, hlt⟩
        rw [List.flatMap_cons, List.length_append]
        omega

variable {input : List UInt8} {m : Module}

/-- Nothing but a part of the header is left: the magic number or the version ends too early. -/
theorem ofBytes_take_header {n : Nat} (h : n < 8) :
    Module.ofBytes (header.take n) =
      .error (if n < 4 then .unexpectedEnd 0 (4 - n) else .unexpectedEnd 4 (8 - n)) := by
  have hall : ∀ n < 8, Module.ofBytes (header.take n) =
      .error (if n < 4 then .unexpectedEnd 0 (4 - n) else .unexpectedEnd 4 (8 - n)) := by
    decide
  exact hall n h

/-- The cut is at the end of a section, or of the header: the module is read up to there. -/
theorem ofBytes_take_sections {before after : List Section}
    (h : Module.ofBytes input = .ok ⟨before ++ after⟩) :
    Module.ofBytes (input.take (8 + (before.flatMap Section.source).length)) = .ok ⟨before⟩ := by
  obtain ⟨rfl, hframes⟩ := ofBytes_eq_ok_iff.1 h
  refine ofBytes_eq_ok_iff.2 ⟨?_, ?_⟩
  · have hlength : 8 + (before.flatMap Section.source).length =
        (header ++ before.flatMap Section.source).length := by
      rw [List.length_append]
      rfl
    rw [List.flatMap_append, ← List.append_assoc, hlength, List.take_left]
  · exact hframes.of_append

/-- The cut is within a section: that section is refused. -/
theorem ofBytes_take_within {before after : List Section} {s : Section} {k : Nat}
    (h : Module.ofBytes input = .ok ⟨before ++ s :: after⟩) (hpos : 0 < k)
    (hk : k < s.source.length) :
    ∃ first, s.bounds? =
        some (first, 8 + (before.flatMap Section.source).length + s.source.length) ∧
      Module.ofBytes (input.take (8 + (before.flatMap Section.source).length + k)) =
        .error (s.kind.cutAt first (8 + (before.flatMap Section.source).length + s.source.length)
          (8 + (before.flatMap Section.source).length + k)) := by
  obtain ⟨rfl, hframes⟩ := ofBytes_eq_ok_iff.1 h
  obtain ⟨next, hbehind, hloop⟩ := whileUnread_append_of_frames hframes [] (s.source.take k)
  cases hbehind with
  | cons follows frame frames =>
      obtain ⟨first, d, hbounds, hcut⟩ :=
        nextSection_take (p := ⟨before.reverse ++ [], next⟩) follows frame hpos hk
      refine ⟨first, hbounds, answer_eq_error_iff.2 ⟨d, ?_⟩⟩
      have htake : (header ++ (before ++ s :: after).flatMap Section.source).take
          (8 + (before.flatMap Section.source).length + k) =
          header ++ (before.flatMap Section.source ++ s.source.take k) := by
        rw [Nat.add_assoc, show (8 : Nat) = header.length from rfl, List.take_length_add_append,
          List.flatMap_append, List.take_length_add_append, List.flatMap_cons,
          List.take_append_of_le_length (by omega)]
      have hheader : Reader.header (.ofBytes (header ++ (before.flatMap Section.source ++
          s.source.take k))) = .ok () ⟨before.flatMap Section.source ++ s.source.take k, 8⟩ :=
        header_eq_ok_iff.2 ⟨rfl, rfl⟩
      have hne : (Cursor.mk (s.source.take k)
          (8 + (before.flatMap Section.source).length)).isEmpty = false := by
        rw [Cursor.isEmpty, List.isEmpty_eq_false_iff, ← List.length_pos_iff, List.length_take]
        omega
      rw [htake, Reader.module, bind_of_ok hheader, hloop,
        whileUnread_eq progresses_nextSection hne, map_eq_error_iff.2 hcut]

/-- The sections in front of a place within a section, or at its start, end there at the latest, and
all others end behind it. -/
theorem bounds_of_cut {before after : List Section} {s : Section} {k : Nat}
    (h : Module.ofBytes input = .ok ⟨before ++ s :: after⟩) (hk : k < s.source.length) :
    (∀ t ∈ before, ∃ first last, t.bounds? = some (first, last) ∧
      last ≤ 8 + (before.flatMap Section.source).length) ∧
    ∀ t ∈ s :: after, ∃ first last, t.bounds? = some (first, last) ∧
      8 + (before.flatMap Section.source).length + k < last := by
  obtain ⟨-, hframes⟩ := ofBytes_eq_ok_iff.1 h
  constructor
  · intro t ht
    obtain ⟨first, last, hbounds, -, hlast⟩ := hframes.of_append.exists_bounds ht
    exact ⟨first, last, hbounds, hlast⟩
  · obtain ⟨next, hbehind, -⟩ := whileUnread_append_of_frames hframes [] []
    cases hbehind with
    | cons follows frame frames =>
        obtain ⟨first, -, -, hbounds⟩ := frame.exists_bounds
        refine List.forall_mem_cons.2 ⟨⟨first, _, hbounds, by omega⟩, fun t ht => ?_⟩
        obtain ⟨first, last, hbounds, hlast, -⟩ := frames.exists_bounds ht
        exact ⟨first, last, hbounds, by omega⟩

/-- No section ends at a place within a section. -/
theorem bounds_ne_of_cut {before after : List Section} {s : Section} {k : Nat}
    (h : Module.ofBytes input = .ok ⟨before ++ s :: after⟩) (hpos : 0 < k)
    (hk : k < s.source.length) :
    ∀ t ∈ before ++ s :: after, ∀ first,
      t.bounds? ≠ some (first, 8 + (before.flatMap Section.source).length + k) := by
  obtain ⟨hfront, hback⟩ := bounds_of_cut h hk
  intro t ht first hbounds
  rcases List.mem_append.1 ht with ht | ht
  · obtain ⟨_, last, hlast, hle⟩ := hfront t ht
    rw [hbounds] at hlast
    cases hlast
    omega
  · obtain ⟨_, last, hlast, hlt⟩ := hback t ht
    rw [hbounds] at hlast
    cases hlast
    exact absurd hlt (Nat.lt_irrefl _)

/-- The sections that end at or before a place within a section, or at its start. -/
theorem filter_bounds_of_cut {before after : List Section} {s : Section} {k : Nat}
    (h : Module.ofBytes input = .ok ⟨before ++ s :: after⟩) (hk : k < s.source.length) :
    (before ++ s :: after).filter (fun t => t.bounds?.any
      (·.2 ≤ 8 + (before.flatMap Section.source).length + k)) = before := by
  obtain ⟨hfront, hback⟩ := bounds_of_cut h hk
  rw [List.filter_append, List.filter_eq_self.2, List.filter_eq_nil_iff.2, List.append_nil]
  · intro t ht
    obtain ⟨first, last, hbounds, hlast⟩ := hback t ht
    rw [hbounds, Option.any_some, decide_eq_true_iff]
    omega
  · intro t ht
    obtain ⟨first, last, hbounds, hlast⟩ := hfront t ht
    rw [hbounds, Option.any_some, decide_eq_true_iff]
    omega

/-- A place at which a section starts is the end of the header or that of a section. -/
theorem exists_end_of_cut {before after : List Section}
    (h : Module.ofBytes input = .ok ⟨before ++ after⟩) :
    8 + (before.flatMap Section.source).length = 8 ∨
      ∃ t ∈ before, ∃ first,
        t.bounds? = some (first, 8 + (before.flatMap Section.source).length) := by
  obtain ⟨-, hframes⟩ := ofBytes_eq_ok_iff.1 h
  rcases List.eq_nil_or_concat before with rfl | ⟨front, t, rfl⟩
  · exact .inl rfl
  · have hfront := hframes.of_append
    rw [List.concat_eq_append] at hfront ⊢
    obtain ⟨first, -, -, hbounds⟩ := hfront.isReadAt.exists_bounds
    refine .inr ⟨t, List.mem_append_right _ (List.mem_singleton_self t), first, ?_⟩
    rw [hbounds, List.flatMap_append, List.flatMap_singleton, List.length_append, Nat.add_assoc]

/-- A module that is cut short is read again only if the cut is behind the header or behind one of
its sections; then these sections are what is read. In front of the end of the header the input ends
too early, and behind it the section that is cut is refused, at an offset not behind the cut. -/
theorem ofBytes_take (h : Module.ofBytes input = .ok m) {n : Nat} (hn : n < input.length) :
    ((∃ left, Module.ofBytes (input.take n) = .ok left) ↔
      n = 8 ∨ ∃ s ∈ m.sections, ∃ first, s.bounds? = some (first, n)) ∧
    (∀ left, Module.ofBytes (input.take n) = .ok left →
      left.sections = m.sections.filter fun s => s.bounds?.any (·.2 ≤ n)) ∧
    (n < 8 → Module.ofBytes (input.take n) =
      .error (if n < 4 then .unexpectedEnd 0 (4 - n) else .unexpectedEnd 4 (8 - n))) ∧
    (8 < n → (∀ s ∈ m.sections, ∀ first, s.bounds? ≠ some (first, n)) →
      ∃ before s after first last, m.sections = before ++ s :: after ∧
        s.bounds? = some (first, last) ∧
        8 + (before.flatMap Section.source).length < n ∧ n < last ∧
        ∃ position flaw, position ≤ n ∧
        Module.ofBytes (input.take n) = .error (.malformedSection s.kind.toByte position flaw)) := by
  obtain ⟨sections⟩ := m
  obtain ⟨hinput, hframes⟩ : input = header ++ sections.flatMap Section.source ∧
      Frames none 8 sections := ofBytes_eq_ok_iff.1 h
  by_cases hheader : n < 8
  · have herror : Module.ofBytes (input.take n) =
        .error (if n < 4 then .unexpectedEnd 0 (4 - n) else .unexpectedEnd 4 (8 - n)) := by
      rw [hinput, List.take_append_of_le_length (Nat.le_of_lt hheader)]
      exact ofBytes_take_header hheader
    refine ⟨⟨?_, ?_⟩, ?_, fun _ => herror, fun hpos => absurd hheader (by omega)⟩
    · rintro ⟨left, hleft⟩
      rw [herror] at hleft
      cases hleft
    · rintro (rfl | ⟨s, hs, first, hbounds⟩)
      · omega
      · obtain ⟨_, last, hlast, hlt, -⟩ := hframes.exists_bounds hs
        rw [hbounds] at hlast
        cases hlast
        omega
    · intro left hleft
      rw [herror] at hleft
      cases hleft
  · have hplace : n - 8 < (sections.flatMap Section.source).length := by
      rw [hinput, List.length_append] at hn
      have hlength : header.length = 8 := rfl
      omega
    obtain ⟨before, s, after, k, rfl, hk, hlt⟩ := exists_append_of_lt hplace
    obtain rfl : n = 8 + (before.flatMap Section.source).length + k := by omega
    have hfilter := filter_bounds_of_cut h hlt
    rcases Nat.eq_zero_or_pos k with rfl | hpos
    · -- the cut is where `s` starts
      have hok := ofBytes_take_sections h
      have hend := exists_end_of_cut h
      rw [Nat.add_zero] at hfilter ⊢
      refine ⟨⟨fun _ => ?_, fun _ => ⟨_, hok⟩⟩, ?_, fun hless => absurd hless hheader, ?_⟩
      · exact hend.imp_right fun ⟨t, ht, first, hbounds⟩ =>
          ⟨t, List.mem_append_left _ ht, first, hbounds⟩
      · intro left hleft
        rw [hok] at hleft
        cases hleft
        exact hfilter.symm
      · intro hbehind hnone
        rcases hend with hzero | ⟨t, ht, first, hbounds⟩
        · omega
        · exact absurd hbounds (hnone t (List.mem_append_left _ ht) first)
    · -- the cut is within `s`
      obtain ⟨first, hbounds, herror⟩ := ofBytes_take_within h hpos hlt
      refine ⟨⟨?_, ?_⟩, ?_, fun hless => absurd hless hheader, fun _ _ => ?_⟩
      · rintro ⟨left, hleft⟩
        rw [herror] at hleft
        cases hleft
      · rintro (hzero | ⟨t, ht, first, hbounds⟩)
        · omega
        · exact absurd hbounds (bounds_ne_of_cut h hpos hlt t ht first)
      · intro left hleft
        rw [herror] at hleft
        cases hleft
      · exact ⟨before, s, after, first, _, rfl, hbounds, by omega, by omega, _, _,
          Nat.min_le_left _ _, herror⟩

theorem ofBytes_take_padded :
    ∃ m, Module.ofBytes padded = .ok m ∧ 22 < padded.length ∧
      ((∃ left, Module.ofBytes (padded.take 22) = .ok left) ↔
        22 = 8 ∨ ∃ s ∈ m.sections, ∃ first, s.bounds? = some (first, 22)) ∧
      (∀ left, Module.ofBytes (padded.take 22) = .ok left →
        left.sections = m.sections.filter fun s => s.bounds?.any (·.2 ≤ 22)) ∧
      (22 < 8 → Module.ofBytes (padded.take 22) =
        .error (if 22 < 4 then .unexpectedEnd 0 (4 - 22) else .unexpectedEnd 4 (8 - 22))) ∧
      (8 < 22 → (∀ s ∈ m.sections, ∀ first, s.bounds? ≠ some (first, 22)) →
        ∃ before s after first last, m.sections = before ++ s :: after ∧
          s.bounds? = some (first, last) ∧
          8 + (before.flatMap Section.source).length < 22 ∧ 22 < last ∧
          ∃ position flaw, position ≤ 22 ∧ Module.ofBytes (padded.take 22) =
            .error (.malformedSection s.kind.toByte position flaw)) := by
  have hok : (Module.ofBytes padded).isOk = true := by decide +kernel
  cases h : Module.ofBytes padded with
  | error e => rw [h] at hok; cases hok
  | ok m => exact ⟨m, rfl, by decide, ofBytes_take h (by decide)⟩

end Module

end WasmMeter

import WasmMeter.Module.Read
import WasmMeter.Proofs.Disassembly.Sequence

/-!
What bytes are read as a module. Behind the header they are cut into frames, each of which is the
byte of a kind, a length and contents of that length; a section is what the contents of its frame are
read as, with the frame for its source. Reading is characterised without the reader's loop, as it is
for instructions.
-/
namespace WasmMeter

theorem SectionKind.ofByte?_eq_some_iff {b : UInt8} {kind : SectionKind} :
    ofByte? b = some kind ↔ b = kind.toByte := by
  constructor
  · intro h
    unfold ofByte? at h
    split at h <;> cases h <;> rfl
  · rintro rfl
    exact ofByte?_toByte kind

namespace Reader

/-- The reader answers and leaves nothing unread. -/
def Exhausts {α : Type} (r : Reader α) (c : Cursor) (a : α) : Prop :=
  ∃ d, r c = .ok a d ∧ d.isEmpty = true

end Reader

open Reader

/-- The section is what a frame that begins at `start` is read as. -/
def Section.IsReadAt (start : Nat) (s : Section) : Prop :=
  ∃ size contents, contents.length < 2 ^ 32 ∧ Reads uint32 size contents.length.toUInt32 ∧
    Exhausts (Reader.payload s.kind) ⟨contents, start + 1 + size.length⟩ s.payload ∧
    s.origin = .read (start + 1 + size.length) (start + 1 + size.length + contents.length)
      (s.kind.toByte :: (size ++ contents)) false

namespace Reader

variable {c d : Cursor} {kind : SectionKind}

theorem sectionKind_eq_ok_iff :
    sectionKind c = .ok kind d ↔
      c.unread = kind.toByte :: d.unread ∧ d.position = c.position + 1 := by
  unfold sectionKind
  rw [position_bind, bind_eq_ok_iff]
  constructor
  · rintro ⟨b, e, hb, h⟩
    cases hk : SectionKind.ofByte? b with
    | none =>
        rw [hk] at h
        exact absurd h throw_ne_ok
    | some found =>
        rw [hk] at h
        obtain ⟨rfl, rfl⟩ := pure_eq_ok_iff.1 h
        rw [← SectionKind.ofByte?_eq_some_iff.1 hk]
        exact byte_eq_ok_iff.1 hb
  · intro h
    refine ⟨kind.toByte, d, byte_eq_ok_iff.2 h, ?_⟩
    rw [SectionKind.ofByte?_toByte]
    rfl

/-- A length and a window of that length: the bytes are cut into the length, what the window holds
and the rest. -/
theorem sized_eq_ok_iff {α : Type} {length : Reader UInt32}
    (hlength : ∀ c n d, length c = .ok n d ↔ uint32 c = .ok n d)
    {cause : UInt32 → Nat → Nat → Error} {next : Nat → Cursor → Reader α} {a : α} :
    (length >>= fun n => position >>= fun first =>
        mapEnd (cause n first) (window n.toNat) >>= next first) c = .ok a d ↔
      ∃ size contents rest, contents.length < 2 ^ 32 ∧
        Reads uint32 size contents.length.toUInt32 ∧ c.unread = size ++ (contents ++ rest) ∧
        next (c.position + size.length) ⟨contents, c.position + size.length⟩
          ⟨rest, c.position + size.length + contents.length⟩ = .ok a d := by
  rw [bind_eq_ok_iff]
  constructor
  · rintro ⟨n, e, hn, h⟩
    obtain ⟨size, hu, hsize⟩ := selfDelimiting_uint32.reads uniform_uint32 ((hlength _ _ _).1 hn)
    have he := hsize.position_eq hu ((hlength _ _ _).1 hn)
    rw [position_bind, bind_eq_ok_iff] at h
    obtain ⟨⟨contents, place⟩, ⟨rest, behind⟩, hwindow, h⟩ := h
    obtain ⟨rfl, hcontents, hrest, rfl⟩ := window_eq_ok_iff.1 (mapEnd_eq_ok_iff.1 hwindow)
    have hback : n = contents.length.toUInt32 := by
      rw [hcontents]
      exact UInt32.ofNat_toNat.symm
    refine ⟨size, contents, rest, ?_, hback ▸ hsize, by rw [hu]; exact congrArg _ hrest, ?_⟩
    · rw [hcontents]
      exact n.toNat_lt
    · rw [hcontents, ← he]
      exact h
  · rintro ⟨size, contents, rest, hfits, hsize, hu, h⟩
    have hn : contents.length.toUInt32.toNat = contents.length := UInt32.toNat_ofNat_of_lt' hfits
    refine ⟨_, _, (hlength _ _ _).2 (hsize.run hu), ?_⟩
    rw [position_bind, bind_eq_ok_iff]
    refine ⟨⟨contents, c.position + size.length⟩,
      ⟨rest, c.position + size.length + contents.length⟩,
      mapEnd_eq_ok_iff.2 (window_eq_ok_iff.2 ⟨rfl, hn.symm, rfl, ?_⟩), h⟩
    rw [hn]

/-- The contents are read from the frame alone: a length, and as many bytes, which the payload exhausts.
-/
theorem sectionContents_eq_ok_iff {contained : Payload} {first last : Nat} :
    sectionContents kind c = .ok (contained, first, last) d ↔
      ∃ size contents, contents.length < 2 ^ 32 ∧ Reads uint32 size contents.length.toUInt32 ∧
        Exhausts (payload kind) ⟨contents, first⟩ contained ∧
        c.unread = size ++ (contents ++ d.unread) ∧ first = c.position + size.length ∧
        last = first + contents.length ∧ d.position = last := by
  unfold sectionContents
  rw [sized_eq_ok_iff fun _ _ _ => mapEnd_eq_ok_iff]
  constructor
  · rintro ⟨size, contents, rest, hfits, hsize, hu, h⟩
    obtain ⟨⟨answer, left⟩, e, hwithin, h⟩ := bind_eq_ok_iff.1 h
    obtain ⟨hpayload, rfl⟩ := within_eq_ok_iff.1 hwithin
    dsimp only at h
    cases hempty : left.isEmpty with
    | false =>
        rw [hempty] at h
        cases h
    | true =>
        rw [hempty] at h
        cases h
        exact ⟨size, contents, hfits, hsize, ⟨left, mapEnd_eq_ok_iff.1 hpayload, hempty⟩, hu,
          rfl, rfl, rfl⟩
  · rintro ⟨size, contents, hfits, hsize, ⟨left, hpayload, hempty⟩, hu, rfl, rfl, hd⟩
    refine ⟨size, contents, d.unread, hfits, hsize, hu, ?_⟩
    rw [bind_of_ok (within_eq_ok_iff.2 ⟨mapEnd_eq_ok_iff.2 hpayload, rfl⟩)]
    dsimp only
    rw [hempty, ← hd]
    rfl

theorem kind_of_payload {contained : Payload} (h : payload kind c = .ok contained d) :
    contained.kind = kind := by
  obtain ⟨contents, e, -, h⟩ := bind_eq_ok_iff.1 h
  obtain ⟨rfl, -⟩ := pure_eq_ok_iff.1 h
  rfl

theorem withSource_of_unread {α : Type} {r : Reader α} {a : α} {source : List UInt8}
    (h : r c = .ok a d) (hu : c.unread = source ++ d.unread)
    (hd : d.position = c.position + source.length) : withSource r c = .ok (a, source) d :=
  withSource_eq_ok_iff.2 ⟨h, take_unread hu hd⟩

/-- One more section is one more frame, of a kind that may follow. -/
theorem frame_of_nextSection {p q : Module.Progress} (h : nextSection p c = .ok q d) :
    ∃ s : Section, q.done = s :: p.done ∧ Module.nextRank? p.rank s.kind = some q.rank ∧
      s.IsReadAt c.position ∧ c.unread = s.source ++ d.unread ∧
      d.position = c.position + s.source.length := by
  rw [nextSection, position_bind, bind_eq_ok_iff] at h
  obtain ⟨⟨⟨⟨payload, first, last⟩, rank⟩, source⟩, e, hframe, hq⟩ := h
  cases hq
  obtain ⟨h, rfl⟩ := withSource_eq_ok_iff.1 hframe
  obtain ⟨kind, f, hkind, h⟩ := bind_eq_ok_iff.1 h
  obtain ⟨hu, hf⟩ := sectionKind_eq_ok_iff.1 hkind
  cases hrank : Module.nextRank? p.rank kind with
  | none =>
      rw [hrank] at h
      cases h
  | some next =>
      rw [hrank] at h
      obtain ⟨answer, g, hcontents, h⟩ := bind_eq_ok_iff.1 h
      cases h
      obtain ⟨size, contents, hfits, hsize, hpayload, hfu, rfl, rfl, hd⟩ :=
        sectionContents_eq_ok_iff.1 hcontents
      obtain rfl : payload.kind = kind := kind_of_payload hpayload.choose_spec.1
      have hunread : c.unread = (payload.kind.toByte :: (size ++ contents)) ++ d.unread := by
        rw [hu, hfu, List.cons_append, List.append_assoc]
      have hplaced : d.position =
          c.position + (payload.kind.toByte :: (size ++ contents)).length := by
        rw [hd, hf, List.length_cons, List.length_append]
        omega
      rw [take_unread hunread hplaced]
      rw [hf] at hpayload ⊢
      exact ⟨_, rfl, hrank, ⟨size, contents, hfits, hsize, hpayload, rfl⟩, hunread, hplaced⟩

/-- A frame of a kind that may follow is read as one more section. -/
theorem nextSection_of_frame {done : List Section} {rank next : Option Nat} {s : Section}
    {start : Nat} (hrank : Module.nextRank? rank s.kind = some next) (hframe : s.IsReadAt start)
    (rest : List UInt8) :
    nextSection ⟨done, rank⟩ ⟨s.source ++ rest, start⟩ =
      .ok ⟨s :: done, next⟩ ⟨rest, start + s.source.length⟩ := by
  obtain ⟨payload, origin⟩ := s
  obtain ⟨size, contents, hfits, hsize, hpayload, horigin⟩ := hframe
  obtain rfl : origin = .read (start + 1 + size.length)
    (start + 1 + size.length + contents.length)
    (payload.kind.toByte :: (size ++ contents)) false := horigin
  have hcontents : sectionContents payload.kind ⟨size ++ (contents ++ rest), start + 1⟩ =
      .ok (payload, start + 1 + size.length, start + 1 + size.length + contents.length)
        ⟨rest, start + 1 + size.length + contents.length⟩ :=
    sectionContents_eq_ok_iff.2 ⟨size, contents, hfits, hsize, hpayload, rfl, rfl, rfl, rfl⟩
  have hkind : sectionKind ⟨(payload.kind.toByte :: (size ++ contents)) ++ rest, start⟩ =
      .ok payload.kind ⟨size ++ (contents ++ rest), start + 1⟩ :=
    sectionKind_eq_ok_iff.2 ⟨congrArg _ (List.append_assoc size contents rest), rfl⟩
  have hend : start + (payload.kind.toByte :: (size ++ contents)).length =
      start + 1 + size.length + contents.length := by
    rw [List.length_cons, List.length_append]
    omega
  change Module.nextRank? rank payload.kind = some next at hrank
  rw [nextSection, position_bind]
  refine bind_eq_ok_iff.2 ⟨(((payload, start + 1 + size.length,
    start + 1 + size.length + contents.length), next), payload.kind.toByte :: (size ++ contents)),
    _, withSource_of_unread ?_ rfl rfl, rfl⟩
  refine bind_eq_ok_iff.2 ⟨payload.kind, _, hkind, ?_⟩
  rw [hrank]
  refine bind_eq_ok_iff.2 ⟨_, _, hcontents, ?_⟩
  rw [← hend]
  rfl

end Reader

theorem Section.IsReadAt.source_ne_nil {start : Nat} {s : Section} (h : s.IsReadAt start) :
    s.source ≠ [] := by
  obtain ⟨size, contents, -, -, -, horigin⟩ := h
  rw [Section.source, horigin]
  exact List.cons_ne_nil _ _

namespace Module

/-- The sections are what frames are read as that follow one another from `start`, after a section of
the rank. -/
inductive Frames : Option Nat → Nat → List Section → Prop where
  | nil {rank : Option Nat} {start : Nat} : Frames rank start []
  | cons {rank next : Option Nat} {start : Nat} {s : Section} {rest : List Section}
      (follows : nextRank? rank s.kind = some next) (frame : s.IsReadAt start)
      (frames : Frames next (start + s.source.length) rest) : Frames rank start (s :: rest)

theorem progresses_nextSection (p : Progress) :
    Progresses (Sum.inl (β := Module) <$> nextSection p) := by
  intro c a d h
  obtain ⟨q, hq, -⟩ := map_eq_ok_iff.1 h
  obtain ⟨s, -, -, hframe, hu, -⟩ := frame_of_nextSection hq
  have hpos := List.length_pos_iff.2 hframe.source_ne_nil
  rw [Cursor.remaining, Cursor.remaining, hu, List.length_append]
  omega

/-- The loop reads frames up to the end of the input. The induction is on the bytes left to read. -/
theorem frames_of_whileUnread {p : Progress} {m : Module} {c d : Cursor}
    (h : whileUnread (Sum.inl <$> nextSection ·) (fun p => return ⟨p.done.reverse⟩) p c =
      .ok m d) :
    ∃ sections, m.sections = p.done.reverse ++ sections ∧ Frames p.rank c.position sections ∧
      c.unread = sections.flatMap Section.source := by
  induction hn : c.remaining using Nat.strongRecOn generalizing p c with
  | ind n ih =>
      subst hn
      rcases (whileUnread_eq_ok_iff progresses_nextSection).1 h with ⟨hempty, hend⟩ | ⟨-, hlast | hmore⟩
      · cases hend
        exact ⟨[], (List.append_nil _).symm, .nil, List.isEmpty_iff.1 hempty⟩
      · obtain ⟨q, -, hq⟩ := map_eq_ok_iff.1 hlast
        cases hq
      · obtain ⟨q, middle, hstep, hloop⟩ := hmore
        have hless := progresses_nextSection p _ _ _ hstep
        obtain ⟨q, hq, heq⟩ := map_eq_ok_iff.1 hstep
        cases heq
        obtain ⟨s, hdone, hrank, hframe, hu, hd⟩ := frame_of_nextSection hq
        obtain ⟨rest, hrest, hframes, hunread⟩ := ih _ hless hloop rfl
        refine ⟨s :: rest, ?_, .cons hrank hframe (hd ▸ hframes), ?_⟩
        · rw [hrest, hdone, List.reverse_cons, List.append_assoc, List.singleton_append]
        · rw [hu, hunread, List.flatMap_cons]

/-- Frames are read by the loop. -/
theorem whileUnread_of_frames (done : List Section) {rank : Option Nat} {start : Nat}
    {sections : List Section} (h : Frames rank start sections) :
    ∃ d, whileUnread (Sum.inl <$> nextSection ·) (fun p => return ⟨p.done.reverse⟩) ⟨done, rank⟩
      ⟨sections.flatMap Section.source, start⟩ = .ok (⟨done.reverse ++ sections⟩ : Module) d := by
  induction h generalizing done with
  | @nil rank start =>
      refine ⟨⟨[], start⟩, ?_⟩
      rw [whileUnread_of_isEmpty rfl, List.append_nil]
      rfl
  | @cons rank next start s rest follows frame frames ih =>
      obtain ⟨d, hloop⟩ := ih (s :: done)
      have hstep : nextSection ⟨done, rank⟩ ⟨(s :: rest).flatMap Section.source, start⟩ =
          .ok ⟨s :: done, next⟩
            ⟨rest.flatMap Section.source, start + s.source.length⟩ :=
        nextSection_of_frame follows frame _
      have hne : (Cursor.mk ((s :: rest).flatMap Section.source) start).isEmpty = false := by
        rw [List.flatMap_cons]
        exact isEmpty_append_of_ne_nil frame.source_ne_nil _ start
      refine ⟨d, (whileUnread_eq_ok_iff progresses_nextSection).2 (.inr ⟨hne, .inr ?_⟩)⟩
      refine ⟨_, _, map_eq_ok_iff.2 ⟨_, hstep, rfl⟩, ?_⟩
      rw [hloop, List.reverse_cons, List.append_assoc, List.singleton_append]

end Module

/-- Only the magic number and the one version that there is are a header. -/
theorem Reader.header_eq_ok_iff {c d : Cursor} {answer : Unit} :
    header c = .ok answer d ↔
      c.unread = Module.header ++ d.unread ∧ d.position = c.position + 8 := by
  constructor
  · intro h
    obtain ⟨found, e, hfound, h⟩ := bind_eq_ok_iff.1 h
    obtain ⟨-, hu, he⟩ := take_eq_ok_iff.1 hfound
    by_cases hmagic : found = Module.magic
    · rw [if_neg fun hne => hne hmagic] at h
      obtain ⟨version, f, hversion, h⟩ := bind_eq_ok_iff.1 h
      obtain ⟨bytes, g, hbytes, hword⟩ := bind_eq_ok_iff.1 hversion
      obtain ⟨rfl, rfl⟩ := pure_eq_ok_iff.1 hword
      obtain ⟨hlength, hbytes, hg⟩ := take_eq_ok_iff.1 hbytes
      by_cases hone : Bytes.toWord bytes = Module.version.toNat
      · rw [if_neg fun hne => hne hone] at h
        cases h
        have hversion : bytes = Bytes.ofWord 4 Module.version.toNat := by
          rw [← hone, ← hlength, Bytes.ofWord_toWord]
        refine ⟨?_, by omega⟩
        rw [hu, hbytes, hmagic, hversion, Module.header, List.append_assoc]
      · rw [if_pos hone] at h
        cases h
    · rw [if_pos hmagic] at h
      cases h
  · rintro ⟨hu, hd⟩
    have hmagic : take 4 c = .ok Module.magic
        ⟨Bytes.ofWord 4 Module.version.toNat ++ d.unread, c.position + 4⟩ :=
      (reads_take Module.magic).run hu
    have hversion : word 4 ⟨Bytes.ofWord 4 Module.version.toNat ++ d.unread, c.position + 4⟩ =
        .ok Module.version.toNat ⟨d.unread, c.position + 4 + 4⟩ :=
      reads_word (by decide) d.unread (c.position + 4)
    refine bind_eq_ok_iff.2 ⟨Module.magic, _, hmagic, ?_⟩
    rw [if_neg fun hne => hne rfl]
    refine bind_eq_ok_iff.2 ⟨_, _, hversion, ?_⟩
    rw [if_neg fun hne => hne rfl]
    have hend : d = ⟨d.unread, c.position + 8⟩ := by rw [← hd]
    rw [hend]
    rfl

/-- Bytes are read as a module exactly if they are the header and the sources of its sections, and
the sections are what those are read as. -/
theorem Module.ofBytes_eq_ok_iff {input : List UInt8} {m : Module} :
    Module.ofBytes input = .ok m ↔
      input = Module.header ++ m.sections.flatMap Section.source ∧ Frames none 8 m.sections := by
  unfold Module.ofBytes Reader.answer Reader.module
  constructor
  · intro h
    split at h
    · next m' d hmodule =>
      cases h
      obtain ⟨⟨⟩, e, hheader, hloop⟩ := bind_eq_ok_iff.1 hmodule
      obtain ⟨hu, he⟩ := header_eq_ok_iff.1 hheader
      obtain ⟨sections, hsections, hframes, hunread⟩ := frames_of_whileUnread hloop
      obtain rfl : m.sections = sections := hsections
      have hstart : e.position = 8 := he
      rw [hstart] at hframes
      rw [← hunread]
      exact ⟨hu, hframes⟩
    · cases h
  · rintro ⟨rfl, hframes⟩
    obtain ⟨d, hloop⟩ := whileUnread_of_frames [] hframes
    have hheader : Reader.header (.ofBytes (Module.header ++ m.sections.flatMap Section.source)) =
        .ok () ⟨m.sections.flatMap Section.source, 8⟩ :=
      header_eq_ok_iff.2 ⟨rfl, rfl⟩
    rw [bind_of_ok hheader, hloop]
    rfl

end WasmMeter

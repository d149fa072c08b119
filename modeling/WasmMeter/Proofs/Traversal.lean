import Mathlib.Data.List.Forall2

/-!
Going through a list with a step that can fail. The whole answers exactly if every step does, entry
by entry; so two lists whose entries answer alike are gone through alike.
-/
namespace WasmMeter

variable {α β γ δ ε : Type}

theorem ok_of_bind_iff {x : Except ε α} {f : α → Except ε β} {b : β} :
    (x >>= f) = .ok b ↔ ∃ a, x = .ok a ∧ f a = .ok b := by
  cases x with
  | error e => constructor <;> intro h <;> simp [bind, Except.bind] at h
  | ok a => simp [bind, Except.bind]

theorem ok_of_pure_iff {a b : α} : (pure a : Except ε α) = .ok b ↔ a = b := by
  simp [pure, Except.pure]

theorem error_of_bind_iff {x : Except ε α} {f : α → Except ε β} {e : ε} :
    (x >>= f) = .error e ↔ x = .error e ∨ ∃ a, x = .ok a ∧ f a = .error e := by
  cases x with
  | error e' => constructor <;> intro h <;> simpa [bind, Except.bind] using h
  | ok a => simp [bind, Except.bind]

/-- A step that cannot fail is a change of the contents. -/
theorem option_mapM_pure_iff {entry other : Option α} {f : α → α} :
    (entry.mapM fun a => (pure (f a) : Except ε α)) = .ok other ↔ entry.map f = other := by
  cases entry with
  | none => exact ok_of_pure_iff
  | some a => exact ok_of_pure_iff

theorem mapM_eq_ok_iff {f : α → Except ε β} {entries : List α} {answers : List β} :
    entries.mapM f = .ok answers ↔ List.Forall₂ (fun a b => f a = .ok b) entries answers := by
  induction entries generalizing answers with
  | nil =>
      rw [List.mapM_nil, ok_of_pure_iff, List.forall₂_nil_left_iff]
      exact eq_comm
  | cons a entries ih =>
      rw [List.mapM_cons, ok_of_bind_iff]
      constructor
      · rintro ⟨b, hb, h⟩
        obtain ⟨rest, hr, h⟩ := ok_of_bind_iff.1 h
        cases ok_of_pure_iff.1 h
        exact .cons hb (ih.1 hr)
      · intro h
        cases h with
        | cons hb hr =>
            exact ⟨_, hb, ok_of_bind_iff.2 ⟨_, ih.2 hr, rfl⟩⟩

/-- The error is that of the first entry for which the step fails. -/
theorem exists_split_of_mapM_eq_error {f : α → Except ε β} {entries : List α} {e : ε}
    (h : entries.mapM f = .error e) :
    ∃ before a after, entries = before ++ a :: after ∧ (∀ b ∈ before, ∃ c, f b = .ok c) ∧
      f a = .error e := by
  induction entries with
  | nil => cases h
  | cons a entries ih =>
      rw [List.mapM_cons] at h
      rcases error_of_bind_iff.1 h with h | ⟨c, hc, h⟩
      · exact ⟨[], a, entries, rfl, List.forall_mem_nil _, h⟩
      · rcases error_of_bind_iff.1 h with h | ⟨_, -, h⟩
        · obtain ⟨before, b, after, rfl, hbefore, hb⟩ := ih h
          exact ⟨a :: before, b, after, rfl, List.forall_mem_cons.2 ⟨⟨c, hc⟩, hbefore⟩, hb⟩
        · cases h

/-- A step that answers something with a property for every entry answers such a list. -/
theorem exists_mapM {Q : β → Prop} {f : α → Except ε β} {entries : List α}
    (h : ∀ a ∈ entries, ∃ b, f a = .ok b ∧ Q b) :
    ∃ answers, entries.mapM f = .ok answers ∧ ∀ b ∈ answers, Q b := by
  induction entries with
  | nil => exact ⟨[], rfl, List.forall_mem_nil Q⟩
  | cons a entries ih =>
      obtain ⟨⟨b, hb, hq⟩, hentries⟩ := List.forall_mem_cons.1 h
      obtain ⟨answers, hanswers, hall⟩ := ih hentries
      refine ⟨b :: answers, ?_, List.forall_mem_cons.2 ⟨hq, hall⟩⟩
      rw [List.mapM_cons, hb, hanswers]
      rfl

/-- Answers are changed one by one or all at the end. -/
theorem mapM_map_answers (change : β → γ) (f : α → Except ε β) (entries : List α) :
    entries.mapM (fun a => change <$> f a) = List.map change <$> entries.mapM f := by
  induction entries with
  | nil => rfl
  | cons a entries ih =>
      rw [List.mapM_cons, List.mapM_cons, ih, bind_map_left, map_bind]
      refine bind_congr fun b => ?_
      rw [bind_map_left, map_bind]
      rfl

/-- The number of an entry may be left out of what is said about the entry. -/
theorem forall₂_zipIdx_left_iff {R : α → β → Prop} {entries : List α} {others : List β}
    {first : Nat} :
    List.Forall₂ (fun a b => R a.1 b) (entries.zipIdx first) others ↔
      List.Forall₂ R entries others := by
  rw [← List.forall₂_map_left_iff, List.zipIdx_map_fst]

theorem forall_mem_zipIdx_iff {P : α → Prop} {entries : List α} :
    (∀ entry ∈ entries.zipIdx, P entry.1) ↔ ∀ a ∈ entries, P a := by
  rw [← List.forall_mem_map, List.zipIdx_map_fst]

/-- Entries that are related through entries of a list between them. -/
theorem forall₂_trans {R : α → β → Prop} {S : β → γ → Prop} {T : α → γ → Prop} {entries : List α}
    {middle : List β} {others : List γ} (h : List.Forall₂ R entries middle)
    (h' : List.Forall₂ S middle others) (hstep : ∀ a b c, R a b → S b c → T a c) :
    List.Forall₂ T entries others := by
  induction h generalizing others with
  | nil => cases h'; exact .nil
  | cons hab _ ih =>
      cases h' with
      | cons hbc hrest => exact .cons (hstep _ _ _ hab hbc) (ih hrest)

/-- Related entries in the same place are replaced by related ones. -/
theorem forall₂_modify {R : α → β → Prop} {f : α → α} {g : β → β} {entries : List α}
    {others : List β} (h : List.Forall₂ R entries others) (hstep : ∀ a b, R a b → R (f a) (g b))
    (position : Nat) : List.Forall₂ R (entries.modify position f) (others.modify position g) := by
  induction h generalizing position with
  | nil => cases position <;> exact .nil
  | cons hab hrest ih =>
      cases position with
      | zero => exact .cons (hstep _ _ hab) hrest
      | succ position => exact .cons hab (ih position)

/-- Related entries in the same place are replaced by entries that are related in another way. -/
theorem forall₂_mapIdx {R : α → β → Prop} {S : γ → δ → Prop} {f : Nat → α → γ} {g : Nat → β → δ}
    {entries : List α} {others : List β} (h : List.Forall₂ R entries others)
    (hstep : ∀ i a b, R a b → S (f i a) (g i b)) :
    List.Forall₂ S (entries.mapIdx f) (others.mapIdx g) := by
  induction h generalizing f g with
  | nil => exact .nil
  | cons hab _ ih =>
      rw [List.mapIdx_cons, List.mapIdx_cons]
      exact .cons (hstep 0 _ _ hab) (ih fun i => hstep (i + 1))

/-- Numbered lists of which related entries answer alike, up to a change of the answer. -/
theorem mapM_zipIdx_of_forall₂ {R : α → β → Prop} {P : γ → Prop} {f : α × Nat → Except ε γ}
    {g : β × Nat → Except ε δ} {change : Nat → γ → δ} {entries : List α} {others : List β}
    (h : List.Forall₂ R entries others)
    (hstep : ∀ a b n, R a b →
      ∃ c, f (a, n) = .ok c ∧ g (b, n) = .ok (change n c) ∧ P c) (first : Nat) :
    ∃ answers, (entries.zipIdx first).mapM f = .ok answers ∧
      (others.zipIdx first).mapM g = .ok (answers.mapIdx fun n => change (n + first)) ∧
      ∀ c ∈ answers, P c := by
  induction h generalizing first with
  | nil => exact ⟨[], rfl, rfl, List.forall_mem_nil _⟩
  | @cons a b entries others hab _ ih =>
      obtain ⟨c, hf, hg, hc⟩ := hstep a b first hab
      obtain ⟨answers, hanswers, hothers, hall⟩ := ih (first + 1)
      refine ⟨c :: answers, ?_, ?_, List.forall_mem_cons.2 ⟨hc, hall⟩⟩
      · rw [List.zipIdx_cons, List.mapM_cons, hf, hanswers]; rfl
      · rw [List.zipIdx_cons, List.mapM_cons, hg, hothers, List.mapIdx_cons]
        simp only [Nat.zero_add, Nat.add_right_comm _ 1 first]
        rfl

/-- Steps that answer something for each related entry answer for the list. -/
theorem mapM_of_forall₂ {R : α → β → Prop} {S : β → γ → Prop} {f : α → Except ε γ}
    {entries : List α} {others : List β} (h : List.Forall₂ R entries others)
    (hstep : ∀ a b, R a b → ∃ c, f a = .ok c ∧ S b c) :
    ∃ answers, entries.mapM f = .ok answers ∧ List.Forall₂ S others answers := by
  induction h with
  | nil => exact ⟨[], rfl, .nil⟩
  | cons hab _ ih =>
      obtain ⟨c, hf, hs⟩ := hstep _ _ hab
      obtain ⟨answers, hanswers, hall⟩ := ih
      refine ⟨c :: answers, ?_, .cons hs hall⟩
      rw [List.mapM_cons, hf, hanswers]
      rfl

/-- What related entries have in common holds of every entry of one list if of every entry of the
other. -/
theorem forall_mem_of_forall₂ {R : α → β → Prop} {P : α → Prop} {Q : β → Prop} {entries : List α}
    {others : List β} (h : List.Forall₂ R entries others) (hstep : ∀ a b, R a b → P a → Q b)
    (hentries : ∀ a ∈ entries, P a) : ∀ b ∈ others, Q b := by
  induction h with
  | nil => exact List.forall_mem_nil Q
  | cons hab _ ih =>
      obtain ⟨ha, hrest⟩ := List.forall_mem_cons.1 hentries
      exact List.forall_mem_cons.2 ⟨hstep _ _ hab ha, ih hrest⟩

theorem forall₂_mem {R : α → β → Prop} {entries : List α} {others : List β}
    (h : List.Forall₂ R entries others) :
    List.Forall₂ (fun a b => a ∈ entries ∧ b ∈ others ∧ R a b) entries others := by
  obtain ⟨hlength, hget⟩ := List.forall₂_iff_get.1 h
  exact List.forall₂_iff_get.2 ⟨hlength, fun i hi hi' =>
    ⟨List.get_mem _ _, List.get_mem _ _, hget i hi hi'⟩⟩

/-- Entries that are related to others step by step are those others exactly if each step is
trivial. -/
theorem eq_iff_of_forall₂ {R : α → α → Prop} {P : α → Prop} {entries others : List α}
    (h : List.Forall₂ R entries others) (hstep : ∀ a b, R a b → (b = a ↔ P a)) :
    others = entries ↔ ∀ a ∈ entries, P a := by
  induction h with
  | nil => exact iff_of_true rfl (List.forall_mem_nil P)
  | cons hab _ ih => rw [List.cons.injEq, hstep _ _ hab, ih, List.forall_mem_cons]

/-- There is an answer, and every entry of it has a property. -/
def ForallOk (P : α → Prop) (answer : Except ε (List α)) : Prop :=
  ∃ found, answer = .ok found ∧ ∀ a ∈ found, P a

section ForallOk

variable {P Q : α → Prop} {answer : Except ε (List α)} {found : List α}

theorem forallOk_ok_iff : ForallOk P (.ok found : Except ε (List α)) ↔ ∀ a ∈ found, P a := by
  constructor
  · rintro ⟨_, ⟨⟩, h⟩
    exact h
  · exact fun h => ⟨found, rfl, h⟩

theorem forallOk_true_iff : ForallOk (fun _ => True) answer ↔ ∃ found, answer = .ok found :=
  ⟨fun ⟨found, h, _⟩ => ⟨found, h⟩, fun ⟨found, h⟩ => ⟨found, h, fun _ _ => trivial⟩⟩

/-- Under a property that every entry has, properties are exchanged for others. -/
theorem ForallOk.congr {P' : α → Prop} (h : ForallOk Q answer) (hiff : ∀ a, Q a → (P a ↔ P' a)) :
    ForallOk P answer ↔ ForallOk P' answer := by
  obtain ⟨found, rfl, hQ⟩ := h
  rw [forallOk_ok_iff, forallOk_ok_iff]
  exact forall₂_congr fun a ha => hiff a (hQ a ha)

/-- What a step answers for each entry of a list, put together. -/
theorem forallOk_flatten_iff {P : β → Prop} {f : α → Except ε (List β)} {entries : List α} :
    ForallOk P (do return (← entries.mapM f).flatten) ↔ ∀ a ∈ entries, ForallOk P (f a) := by
  constructor
  · rintro ⟨found, hfound, hP⟩ a ha
    obtain ⟨parts, hparts, h⟩ := ok_of_bind_iff.1 hfound
    obtain rfl := ok_of_pure_iff.1 h
    obtain ⟨i, hi, rfl⟩ := List.mem_iff_getElem.1 ha
    obtain ⟨hlength, hget⟩ := List.forall₂_iff_get.1 (mapM_eq_ok_iff.1 hparts)
    refine ⟨parts[i], hget i hi (hlength ▸ hi), fun b hb => hP b ?_⟩
    exact List.mem_flatten_of_mem (List.getElem_mem _) hb
  · intro h
    obtain ⟨parts, hparts, hall⟩ := exists_mapM h
    refine ⟨parts.flatten, ok_of_bind_iff.2 ⟨parts, hparts, rfl⟩, fun b hb => ?_⟩
    obtain ⟨part, hpart, hb⟩ := List.mem_flatten.1 hb
    exact hall part hpart b hb

end ForallOk

/-- What is found in the entries of a list, each looked at together with its number. -/
def collect (find : Nat → α → Except ε (List γ)) (entries : List α) : Except ε (List γ) := do
  return (← entries.zipIdx.mapM fun entry => find entry.2 entry.1).flatten

theorem forallOk_collect_iff {P : γ → Prop} {find : Nat → α → Except ε (List γ)}
    {entries : List α} :
    ForallOk P (collect find entries) ↔
      ∀ entry ∈ entries.zipIdx, ForallOk P (find entry.2 entry.1) :=
  forallOk_flatten_iff

/-- Something is found in a list exactly if something is found in each of its entries. -/
theorem exists_collect_iff {P : α → Prop} {find : Nat → α → Except ε (List γ)} {entries : List α}
    (h : ∀ n a, (∃ part, find n a = .ok part) ↔ P a) :
    (∃ found, collect find entries = .ok found) ↔ ∀ a ∈ entries, P a := by
  rw [← forallOk_true_iff, forallOk_collect_iff, ← forall_mem_zipIdx_iff (P := P)]
  exact forall₂_congr fun entry _ => forallOk_true_iff.trans (h entry.2 entry.1)

theorem collect_of_forall₂ {R : α → β → Prop} {P : γ → Prop}
    {find : Nat → α → Except ε (List γ)} {find' : Nat → β → Except ε (List γ)}
    {change : Nat → List γ → List γ} {entries : List α} {others : List β}
    (h : List.Forall₂ R entries others)
    (hstep : ∀ a b n, R a b →
      ∃ part, find n a = .ok part ∧ find' n b = .ok (change n part) ∧ ∀ c ∈ part, P c) :
    ∃ parts : List (List γ), collect find entries = .ok parts.flatten ∧
      collect find' others = .ok (parts.mapIdx change).flatten ∧
      parts.length = entries.length ∧ ∀ c ∈ parts.flatten, P c := by
  obtain ⟨parts, hentries, hothers, hall⟩ := mapM_zipIdx_of_forall₂
    (f := fun entry => find entry.2 entry.1) (g := fun entry => find' entry.2 entry.1) h hstep 0
  have hlength := (mapM_eq_ok_iff.1 hentries).length_eq
  rw [List.length_zipIdx] at hlength
  refine ⟨parts, ?_, ?_, hlength.symm, ?_⟩
  · rw [collect, hentries]
    rfl
  · rw [collect, hothers]
    rfl
  · intro c hc
    obtain ⟨part, hpart, hc⟩ := List.mem_flatten.1 hc
    exact hall part hpart c hc

/-- What is found in some entries is found in others that yield the same. -/
theorem collect_of_forall₂_eq {R : α → β → Prop} {find : Nat → α → Except ε (List γ)}
    {find' : Nat → β → Except ε (List γ)} {entries : List α} {others : List β} {found : List γ}
    (h : List.Forall₂ R entries others)
    (hstep : ∀ a b n part, R a b → find n a = .ok part → find' n b = .ok part)
    (hfound : collect find entries = .ok found) : collect find' others = .ok found := by
  have hparts (first : Nat) {parts : List (List γ)}
      (hparts : (entries.zipIdx first).mapM (fun entry => find entry.2 entry.1) = .ok parts) :
      (others.zipIdx first).mapM (fun entry => find' entry.2 entry.1) = .ok parts := by
    clear hfound
    induction h generalizing first parts with
    | nil => exact hparts
    | @cons a b entries others hab _ ih =>
        rw [List.zipIdx_cons, mapM_eq_ok_iff] at hparts ⊢
        cases hparts with
        | cons hpart hrest =>
            exact .cons (hstep a b first _ hab hpart)
              (mapM_eq_ok_iff.1 (ih (first + 1) (mapM_eq_ok_iff.2 hrest)))
  obtain ⟨parts, hfirst, hfound⟩ := ok_of_bind_iff.1 hfound
  exact ok_of_bind_iff.2 ⟨parts, hparts 0 hfirst, hfound⟩

theorem mapIdx_const (f : α → β) (entries : List α) :
    (entries.mapIdx fun _ => f) = entries.map f :=
  List.ext_getElem? fun i => by rw [List.getElem?_mapIdx, List.getElem?_map]

/-- Where every entry yields the same up to a change of what is found, so does the list. -/
theorem collect_map_of_forall₂ {R : α → β → Prop} {find : Nat → α → Except ε (List γ)}
    {find' : Nat → β → Except ε (List γ)} {change : γ → γ} {entries : List α} {others : List β}
    (h : List.Forall₂ R entries others)
    (hstep : ∀ a b n, R a b →
      ∃ part, find n a = .ok part ∧ find' n b = .ok (part.map change)) :
    ∃ found, collect find entries = .ok found ∧
      collect find' others = .ok (found.map change) := by
  obtain ⟨parts, hentries, hothers, -⟩ := collect_of_forall₂ (P := fun _ => True) h
    fun a b n hab => by
      obtain ⟨part, hpart, hother⟩ := hstep a b n hab
      exact ⟨part, hpart, hother, fun _ _ => trivial⟩
  refine ⟨parts.flatten, hentries, ?_⟩
  rw [hothers, mapIdx_const, List.map_flatten]

/-- Where something is found, another step that answers the same values can be taken instead. -/
theorem mapM_of_collect {find : Nat → α → Except ε (List γ)} {f : α × Nat → Except ε (List δ)}
    {value : γ → β} {value' : δ → β} {entries : List α} {found : List γ}
    (h : collect find entries = .ok found)
    (hstep : ∀ n a part, find n a = .ok part →
      ∃ c, f (a, n) = .ok c ∧ c.map value' = part.map value) :
    ∃ answers, entries.zipIdx.mapM f = .ok answers ∧
      answers.flatten.map value' = found.map value := by
  obtain ⟨parts, hparts, h⟩ := ok_of_bind_iff.1 h
  obtain rfl := ok_of_pure_iff.1 h
  obtain ⟨answers, hanswers, hall⟩ := mapM_of_forall₂ (mapM_eq_ok_iff.1 hparts)
    fun entry part hpart => hstep entry.2 entry.1 part hpart
  refine ⟨answers, hanswers, ?_⟩
  have hvalues : answers.map (List.map value') = parts.map (List.map value) := by
    rw [← List.forall₂_eq_eq_eq, List.forall₂_map_left_iff, List.forall₂_map_right_iff]
    exact hall.flip
  rw [List.map_flatten, hvalues, ← List.map_flatten]

/-- Where something is found in every entry, a step that needs no more than that answers. -/
theorem exists_mapM_of_collect {P : γ → Prop} {find : Nat → α → Except ε (List γ)}
    {f : α × Nat → Except ε β} {entries : List α} {found : List γ}
    (h : collect find entries = .ok found) (hfound : ∀ c ∈ found, P c)
    (hstep : ∀ n a part, find n a = .ok part → (∀ c ∈ part, P c) → ∃ b, f (a, n) = .ok b) :
    ∃ answers, entries.zipIdx.mapM f = .ok answers := by
  obtain ⟨parts, hparts, h⟩ := ok_of_bind_iff.1 h
  obtain rfl := ok_of_pure_iff.1 h
  have hall : ∀ part ∈ parts, ∀ c ∈ part, P c := fun part hpart c hc =>
    hfound c (List.mem_flatten_of_mem hpart hc)
  have hboth := (List.forall₂_and_left _ _).2 ⟨hall, (mapM_eq_ok_iff.1 hparts).flip⟩
  obtain ⟨answers, hanswers, -⟩ := mapM_of_forall₂ (S := fun _ _ => True) hboth.flip
    fun entry part hpart => by
      obtain ⟨b, hb⟩ := hstep entry.2 entry.1 part hpart.2 hpart.1
      exact ⟨b, hb, trivial⟩
  exact ⟨answers, hanswers⟩

end WasmMeter

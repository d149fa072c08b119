import WasmMeter.CommandLine
import WasmMeter.Proofs.Files

/-!
What a run of the command line leaves behind, on files held in memory. It delivers the metered module
exactly if the input can be read and metered, the result passes the check where one is asked for, and
the output can be written. Otherwise it says why, prints nothing else, and every file is as before.
-/
namespace WasmMeter.CommandLine

variable {validate : Validator} {config : GasConfig} {isValidating : Bool} {t after : FileTree}
  {input path : String} {output : Option String} {arguments : List String} {report : Report}
  {bytes result : List UInt8}

/-- The result reaches its caller, or the file that it is asked for in, and nothing else is said. -/
inductive Delivers (t : FileTree) (result : List UInt8) :
    Option String → Report → FileTree → Prop where
  | toCaller : Delivers t result none ⟨0, result, ""⟩ t
  | toFile {path : String} {after : FileTree} (written : t.write path result = .ok after) :
      Delivers t result (some path) ⟨0, [], ""⟩ after

/-- Nothing is delivered and no file is touched. The report says what failed. -/
structure Refuses (t : FileTree) (report : Report) (after : FileTree) : Prop where
  failure : ∃ context cause, report = .failure context cause
  unchanged : after = t

theorem access_read (t : FileTree) (name : String) :
    (FileTree.access.read name).run t = (t.read name, t) :=
  rfl

theorem access_write_of_ok (h : t.write path bytes = .ok after) :
    (FileTree.access.write path bytes).run t = (.ok (), after) := by
  rw [FileTree.access, StateT.run_bind, StateT.run_get, pure_bind, h]
  rfl

theorem access_write_of_error {e : FileError} (h : t.write path bytes = .error e) :
    (FileTree.access.write path bytes).run t = (.error e, t) := by
  rw [FileTree.access, StateT.run_bind, StateT.run_get, pure_bind, h]
  rfl

/-- Asking for a check refuses results, and changes none. -/
theorem produce_eq_ok_iff : produce validate isValidating config bytes = .ok result ↔
    addGas bytes config = .ok result ∧ (isValidating = true → validate result = .ok ()) := by
  unfold produce
  cases addGas bytes config with
  | error e => simp
  | ok metered =>
      cases isValidating with
      | false => simp
      | true =>
          dsimp only
          rw [if_pos rfl]
          constructor
          · intro h
            split at h
            · cases h
            · next hvalid =>
              cases h
              exact ⟨rfl, fun _ => hvalid⟩
          · rintro ⟨hsame, hvalid⟩
            cases hsame
            rw [hvalid rfl]

theorem exists_failure_of_produce
    (h : produce validate isValidating config bytes = .error report) :
    ∃ context cause, report = .failure context cause := by
  unfold produce at h
  split at h
  · exact ⟨_, _, (Except.error.inj h).symm⟩
  · split at h
    · exact ⟨_, _, (Except.error.inj h).symm⟩
    · cases h

/-- A delivered file is read with the result in it. -/
theorem Delivers.read (h : Delivers t result (some path) report after) :
    after.read path = .ok result := by
  cases h with
  | toFile written => exact FileTree.read_of_write written

/-- Files that the output does not stand for are as before. -/
theorem Delivers.read_of_ne {name : String} {contents : List UInt8}
    (h : Delivers t result output report after)
    (hne : ∀ path, output = some path → t.place? name ≠ t.place? path)
    (hread : t.read name = .ok contents) : after.read name = .ok contents := by
  cases h with
  | toCaller => exact hread
  | toFile written => exact FileTree.read_of_write_of_ne written (hne _ rfl) hread

/-- The result is delivered, or no tree takes it at the path and nothing changes. -/
theorem deliver_outcome
    (h : (deliver FileTree.access output result).run t = (report, after)) :
    Delivers t result output report after ∨
      Refuses t report after ∧ ∃ path, output = some path ∧ ∀ other, t.write path result ≠ .ok other := by
  cases output with
  | none =>
      cases h
      exact .inl .toCaller
  | some path =>
      cases hwrite : t.write path result with
      | error e =>
          rw [deliver, StateT.run_bind, access_write_of_error hwrite] at h
          cases h
          exact .inr ⟨⟨⟨_, _, rfl⟩, rfl⟩, path, rfl, fun other => by rw [hwrite]; rintro ⟨⟩⟩
      | ok other =>
          rw [deliver, StateT.run_bind, access_write_of_ok hwrite] at h
          cases h
          exact .inl (.toFile hwrite)

/-- The steps of a run are taken in order, and the first that fails ends it. -/
theorem meterFile_outcome
    (h : (meterFile FileTree.access validate input output config isValidating).run t =
      (report, after)) :
    (∃ bytes result, t.read input = .ok bytes ∧
        produce validate isValidating config bytes = .ok result ∧
        Delivers t result output report after) ∨
      Refuses t report after ∧ ∀ bytes result, t.read input = .ok bytes →
        produce validate isValidating config bytes = .ok result →
        ∃ path, output = some path ∧ ∀ other, t.write path result ≠ .ok other := by
  rw [meterFile, StateT.run_bind, access_read] at h
  dsimp only [Id.run, pure, bind] at h
  cases hread : t.read input with
  | error e =>
      rw [hread] at h
      cases h
      exact .inr ⟨⟨⟨_, _, rfl⟩, rfl⟩, fun bytes result hbytes => by cases hbytes⟩
  | ok bytes =>
      rw [hread] at h
      dsimp only at h
      cases hproduce : produce validate isValidating config bytes with
      | error failed =>
          rw [hproduce] at h
          cases h
          refine .inr ⟨⟨exists_failure_of_produce hproduce, rfl⟩, ?_⟩
          rintro _ result ⟨⟩ hresult
          rw [hproduce] at hresult
          cases hresult
      | ok result =>
          rw [hproduce] at h
          refine (deliver_outcome h).imp (fun hdelivers => ⟨bytes, result, rfl, hproduce, hdelivers⟩)
            fun ⟨hrefuses, hpath⟩ => ⟨hrefuses, ?_⟩
          rintro _ other ⟨⟩ hother
          cases hproduce.symm.trans hother
          exact hpath

theorem Delivers.exitCode (h : Delivers t result output report after) : report.exitCode = 0 := by
  cases h <;> rfl

/-- A failure has an exit code of its own, and prints nothing but its diagnosis. -/
theorem Refuses.report_eq (h : Refuses t report after) :
    report.exitCode = 1 ∧ report.output = [] := by
  obtain ⟨context, cause, rfl⟩ := h.failure
  exact ⟨rfl, rfl⟩

/-- Metering a file succeeds exactly if nothing stands in its way: each step answers, and what it
answers is what the next one is given. -/
theorem exitCode_meterFile_eq_zero_iff
    (h : (meterFile FileTree.access validate input output config isValidating).run t =
      (report, after)) :
    report.exitCode = 0 ↔ ∃ bytes result, t.read input = .ok bytes ∧
      addGas bytes config = .ok result ∧ (isValidating = true → validate result = .ok ()) ∧
      ∀ path, output = some path → ∃ other, t.write path result = .ok other := by
  rcases meterFile_outcome h with ⟨bytes, result, hread, hproduce, hdelivers⟩ | ⟨hrefuses, hwhy⟩
  · obtain ⟨hmetered, hvalid⟩ := produce_eq_ok_iff.1 hproduce
    refine iff_of_true hdelivers.exitCode ⟨bytes, result, hread, hmetered, hvalid, ?_⟩
    rintro path rfl
    cases hdelivers with
    | toFile written => exact ⟨_, written⟩
  · refine iff_of_false (by rw [hrefuses.report_eq.1]; decide) ?_
    rintro ⟨bytes, result, hread, hmetered, hvalid, hwritten⟩
    obtain ⟨path, hpath, hnever⟩ :=
      hwhy bytes result hread (produce_eq_ok_iff.2 ⟨hmetered, hvalid⟩)
    obtain ⟨other, hother⟩ := hwritten path hpath
    exact hnever other hother

/-- What a run leaves behind. The exit code is 2 exactly if the arguments are misused, and 0 with a
module to be metered exactly if it can be read, metered, found valid where that is asked for, and
written. The result is then delivered. With any other exit code nothing is printed but a diagnosis, and
every file is as before. -/
theorem run_outcome (h : (run FileTree.access arguments validate).run t = (report, after)) :
    (report.exitCode = 2 ↔ Request.ofArguments arguments = .misuse) ∧
      (report.exitCode ≠ 0 → report.output = [] ∧ after = t) ∧
      ∀ input output config isValidating,
        Request.ofArguments arguments = .meter input output config isValidating →
          (report.exitCode = 0 ↔ ∃ bytes result, t.read input = .ok bytes ∧
            addGas bytes config = .ok result ∧ (isValidating = true → validate result = .ok ()) ∧
            ∀ path, output = some path → ∃ other, t.write path result = .ok other) ∧
          (report.exitCode = 0 → ∃ bytes result, t.read input = .ok bytes ∧
            addGas bytes config = .ok result ∧ Delivers t result output report after) := by
  unfold run at h
  cases hrequest : Request.ofArguments arguments with
  | misuse =>
      rw [hrequest] at h
      cases h
      exact ⟨iff_of_true rfl rfl, fun _ => ⟨rfl, rfl⟩, fun _ _ _ _ hmeter => by cases hmeter⟩
  | information =>
      rw [hrequest] at h
      cases h
      refine ⟨iff_of_false (by decide) (by rintro ⟨⟩), fun hne => absurd rfl hne, ?_⟩
      exact fun _ _ _ _ hmeter => by cases hmeter
  | meter input output config isValidating =>
      rw [hrequest] at h
      have hzero := exitCode_meterFile_eq_zero_iff h
      rcases meterFile_outcome h with ⟨bytes, result, hread, hproduce, hdelivers⟩ | ⟨hrefuses, -⟩
      · have hcode := hdelivers.exitCode
        refine ⟨iff_of_false (by rw [hcode]; decide) (by rintro ⟨⟩), fun hne => absurd hcode hne, ?_⟩
        rintro _ _ _ _ ⟨⟩
        exact ⟨hzero, fun _ => ⟨bytes, result, hread, (produce_eq_ok_iff.1 hproduce).1, hdelivers⟩⟩
      · obtain ⟨hcode, hprinted⟩ := hrefuses.report_eq
        refine ⟨iff_of_false (by rw [hcode]; decide) (by rintro ⟨⟩),
          fun _ => ⟨hprinted, hrefuses.unchanged⟩, ?_⟩
        rintro _ _ _ _ ⟨⟩
        exact ⟨hzero, fun hsuccess => absurd (hcode.symm.trans hsuccess) (by decide)⟩

end WasmMeter.CommandLine

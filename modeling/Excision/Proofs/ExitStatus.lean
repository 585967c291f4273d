import Excision.CommandLine.Screen
import Excision.Proofs.PruneFrame

/-!
# The status of the program

The status tells how a run ended: 0 if it did what it was asked to, 1 if a stage failed, and 2 if
it went through all its stages but fell short of the request, because a method was missed and that
is not allowed. A run that removes methods gets the status of exactly one of these cases
(`PruneRequest.status_of_fallsShort`, `PruneRequest.status_of_not_fallsShort`,
`PruneRequest.status_of_not_completes`), whatever else holds of it: a save that fails counts before
a method that is missed. The main result `Session.execute_prune` says this of the program with all
it prints and writes.

The other commands never fall short, but the status 2 has a second meaning. Arguments from which no
command comes end with it as well, before anything is looked at (`Session.execute_status_two_iff`).
-/

set_option autoImplicit false

namespace Excision

open Session

/-! ## Runs that remove methods -/

namespace PruneRequest

/-- Some method is missed, and the request does not allow that. -/
def FallsShort (request : PruneRequest) (catalog : Catalog) (selection : Selection)
    (text : String) : Prop :=
  selection.Misses text ∧ request.selection.allowsMissingIn catalog = false

section Status

variable {request : PruneRequest} {config : Option Path} {session after : Session}
  {conclusion : Conclusion} {catalog : Catalog} {selection : Selection} {text : String}

theorem Loads.fallsShort_iff (h : request.Loads config session catalog selection text) :
    request.FallsShort catalog selection text ↔
      ((selection.plan text).missing.isEmpty || selection.settings.allowsMissing) = false := by
  obtain ⟨names, -, hselection⟩ := h.selects
  rw [FallsShort, ← Selection.isEmpty_missing_plan_eq_false_iff,
    ← SelectionRequest.allowsMissing_of_resolveIn hselection, Bool.or_eq_false_iff]

/-- A run that completes and falls short ends with status 2. -/
theorem status_of_fallsShort (hcompletes : request.Completes config session catalog selection text)
    (hshort : request.FallsShort catalog selection text)
    (h : (request.run config : StateM Session Conclusion).run session = (conclusion, after)) :
    conclusion.ending.status = 2 := by
  obtain ⟨status, rfl, hstatus, -⟩ := hcompletes.toLoads.conclusion_eq h
  rw [status_ending_of_not_failed (hstatus.1 hcompletes),
    hcompletes.toLoads.fallsShort_iff.1 hshort]
  rfl

/-- A run that completes and does not fall short ends with status 0. -/
theorem status_of_not_fallsShort
    (hcompletes : request.Completes config session catalog selection text)
    (hnot : ¬ request.FallsShort catalog selection text)
    (h : (request.run config : StateM Session Conclusion).run session = (conclusion, after)) :
    conclusion.ending.status = 0 := by
  obtain ⟨status, rfl, hstatus, -⟩ := hcompletes.toLoads.conclusion_eq h
  rw [hcompletes.toLoads.fallsShort_iff, Bool.not_eq_false] at hnot
  rw [status_ending_of_not_failed (hstatus.1 hcompletes), hnot]
  rfl

/-- A run that does not complete ends with status 1, whether methods are missed or not. -/
theorem status_of_not_completes
    (hnot : ∀ catalog selection text, ¬ request.Completes config session catalog selection text)
    (h : (request.run config : StateM Session Conclusion).run session = (conclusion, after)) :
    conclusion.ending.status = 1 := by
  rcases run_stages h with ⟨-, ⟨failure, rfl⟩, -⟩ |
    ⟨catalog, selection, text, status, hloads, rfl, hsaves⟩
  · rfl
  · -- all stages before the save succeeded, so it is the save that failed
    cases status with
    | failed fault => rfl
    | skipped => exact absurd ((completes_iff hloads hsaves).2 fun _ => nofun) (hnot _ _ _)
    | written path => exact absurd ((completes_iff hloads hsaves).2 fun _ => nofun) (hnot _ _ _)

/-- The three outcomes of a run, each with its status. -/
theorem status_cases
    (h : (request.run config : StateM Session Conclusion).run session = (conclusion, after)) :
    (conclusion.ending.status = 2 ∧ ∃ catalog selection text,
        request.Completes config session catalog selection text ∧
          request.FallsShort catalog selection text) ∨
      (conclusion.ending.status = 0 ∧ ∃ catalog selection text,
        request.Completes config session catalog selection text ∧
          ¬ request.FallsShort catalog selection text) ∨
      (conclusion.ending.status = 1 ∧ ∀ catalog selection text,
        ¬ request.Completes config session catalog selection text) := by
  by_cases hexists : ∃ catalog selection text,
      request.Completes config session catalog selection text
  · obtain ⟨catalog, selection, text, hcompletes⟩ := hexists
    by_cases hshort : request.FallsShort catalog selection text
    · exact Or.inl ⟨status_of_fallsShort hcompletes hshort h,
        catalog, selection, text, hcompletes, hshort⟩
    · exact Or.inr (Or.inl ⟨status_of_not_fallsShort hcompletes hshort h,
        catalog, selection, text, hcompletes, hshort⟩)
  · have hnot : ∀ catalog selection text,
        ¬ request.Completes config session catalog selection text :=
      fun catalog selection text hcompletes => hexists ⟨catalog, selection, text, hcompletes⟩
    exact Or.inr (Or.inr ⟨status_of_not_completes hnot h, hnot⟩)

theorem status_eq_two_iff
    (h : (request.run config : StateM Session Conclusion).run session = (conclusion, after)) :
    conclusion.ending.status = 2 ↔ ∃ catalog selection text,
      request.Completes config session catalog selection text ∧
        request.FallsShort catalog selection text := by
  constructor
  · intro htwo
    rcases status_cases h with ⟨-, hshort⟩ | ⟨hzero, -⟩ | ⟨hone, -⟩
    · exact hshort
    · omega
    · omega
  · rintro ⟨catalog, selection, text, hcompletes, hshort⟩
    exact status_of_fallsShort hcompletes hshort h

theorem status_eq_zero_iff
    (h : (request.run config : StateM Session Conclusion).run session = (conclusion, after)) :
    conclusion.ending.status = 0 ↔ ∃ catalog selection text,
      request.Completes config session catalog selection text ∧
        ¬ request.FallsShort catalog selection text := by
  constructor
  · intro hzero
    rcases status_cases h with ⟨htwo, -⟩ | ⟨-, hnot⟩ | ⟨hone, -⟩
    · omega
    · exact hnot
    · omega
  · rintro ⟨catalog, selection, text, hcompletes, hnot⟩
    exact status_of_not_fallsShort hcompletes hnot h

theorem status_eq_one_iff
    (h : (request.run config : StateM Session Conclusion).run session = (conclusion, after)) :
    conclusion.ending.status = 1 ↔ ∀ catalog selection text,
      ¬ request.Completes config session catalog selection text := by
  constructor
  · intro hone
    rcases status_cases h with ⟨htwo, -⟩ | ⟨hzero, -⟩ | ⟨-, hnone⟩
    · omega
    · omega
    · exact hnone
  · intro hnone
    exact status_of_not_completes hnone h

/-- The report of a run that loads says that the output was written exactly if the run completes and
is not dry. -/
theorem Loads.report_eq (hloads : request.Loads config session catalog selection text)
    (h : (request.run config : StateM Session Conclusion).run session = (conclusion, after)) :
    ∃ written, (written = true ↔ request.dryRun = false ∧
        request.Completes config session catalog selection text) ∧
      conclusion.report = some (.prune (.ofPlan (selection.plan text) request.input.text
        (request.output?.map Path.text) written)) := by
  obtain ⟨status, rfl, hstatus, hsaves⟩ := hloads.conclusion_eq h
  refine ⟨status.isWritten, ?_, rfl⟩
  rw [hstatus]
  rcases saves_cases hsaves with ⟨hdry, rfl, -⟩ | ⟨hdry, ⟨fault, rfl⟩, -, -⟩ | ⟨hdry, rfl, -⟩
  · simp [WriteStatus.isWritten, hdry]
  · simp [WriteStatus.isWritten]
  · simp [WriteStatus.isWritten, hdry]

end Status

end PruneRequest

/-! ## The other commands -/

/-- To locate methods never falls short: a method that is missed is reported, and that is all. -/
theorem LocateRequest.status_ne_two (request : LocateRequest) (config : Option Path)
    (session : Session) :
    ((request.run config : StateM Session Conclusion).run session).1.ending.status ≠ 2 := by
  rw [LocateRequest.run, run_bind]
  cases ((request.selection.resolve config request.names :
    StateM Session (Except Failure Selection)).run session).1 with
  | error failure => exact nofun
  | ok selection =>
      simp only [run_bind, run_load]
      generalize ((request.selection.resolve config request.names :
        StateM Session (Except Failure Selection)).run session).2 = resolved
      cases (resolved.load request.input).1 with
      | error fault => exact nofun
      | ok source => exact nofun

theorem Catalog.status_report_ne_two (catalog : Catalog) (name : Option String) :
    (catalog.report name).ending.status ≠ 2 := by
  cases name with
  | none => exact nofun
  | some name =>
      rw [Catalog.report]
      split
      · exact nofun
      · exact nofun

theorem status_showPresets_ne_two (name : Option String) (config : Option Path)
    (session : Session) :
    ((showPresets name config : StateM Session Conclusion).run session).1.ending.status ≠ 2 := by
  rw [showPresets, run_bind, run_bind]
  generalize (Catalog.load config _ : StateM Session _).run _ = loading
  rcases loading with ⟨fault | loaded, after⟩
  · exact nofun
  · exact loaded.catalog.status_report_ne_two name

/-- Only a run that removes methods ends with status 2. -/
theorem Command.exists_prune_of_status {command : Command} {config : Option Path}
    {session : Session}
    (h : ((command.run config : StateM Session Conclusion).run session).1.ending.status = 2) :
    ∃ request, command = .prune request := by
  cases command with
  | prune request => exact ⟨request, rfl⟩
  | locate request => exact absurd h (request.status_ne_two config session)
  | presets name => exact absurd h (status_showPresets_ne_two name config session)

/-! ## Printed reports -/

theorem textOfLines_cons_ne_empty (line : String) (lines : List String) :
    textOfLines (line :: lines) ≠ "" := by
  rw [textOfLines, List.map_cons, String.join_cons]
  simp

/-- The report on a run is printed as something. -/
theorem Report.print_prune_ne_empty (report : PruneReport) (colored : Bool)
    (rendering : Rendering) : (Report.prune report).print colored rendering ≠ "" := by
  cases rendering with
  | human => exact textOfLines_cons_ne_empty _ _
  | json =>
      rw [Report.print]
      simp

namespace PruneRequest

section Output

variable {request : PruneRequest} {config : Option Path} {session after : Session}
  {conclusion : Conclusion}

/-- A run that loads prints its report, whatever becomes of the save. -/
theorem Loads.output_eq {catalog : Catalog} {selection : Selection} {text : String}
    (hloads : request.Loads config session catalog selection text)
    (h : (request.run config : StateM Session Conclusion).run session = (conclusion, after))
    (rendering : Rendering) (colored : Bool) :
    ∃ written, (written = true ↔ request.dryRun = false ∧
        request.Completes config session catalog selection text) ∧
      conclusion.output rendering colored = (Report.prune (.ofPlan (selection.plan text)
        request.input.text (request.output?.map Path.text) written)).print colored rendering := by
  obtain ⟨written, hwritten, hreport⟩ := hloads.report_eq h
  refine ⟨written, hwritten, ?_⟩
  rw [Conclusion.output, hreport]

/-- Only a run that loads prints anything. -/
theorem output_ne_empty_iff
    (h : (request.run config : StateM Session Conclusion).run session = (conclusion, after))
    (rendering : Rendering) (colored : Bool) :
    conclusion.output rendering colored ≠ "" ↔
      ∃ catalog selection text, request.Loads config session catalog selection text := by
  constructor
  · intro hprinted
    rcases run_stages h with ⟨-, ⟨failure, rfl⟩, -⟩ | ⟨catalog, selection, text, -, hloads, -, -⟩
    · exact absurd rfl hprinted
    · exact ⟨catalog, selection, text, hloads⟩
  · rintro ⟨catalog, selection, text, hloads⟩
    obtain ⟨written, -, hprinted⟩ := hloads.output_eq h rendering colored
    rw [hprinted]
    exact Report.print_prune_ne_empty _ _ _

end Output

end PruneRequest

/-! ## The program -/

namespace Session

theorem execute_of_error {arguments : List String} {halt : Halt}
    (h : Invocation.ofArguments arguments = .error halt) (setup : Setup) (session : Session) :
    session.execute setup arguments = (halt.screen, session) := by
  rw [execute, h]

/-- What the program prints and leaves is what its command concludes and leaves. -/
theorem execute_of_ok {arguments : List String} {invocation : Invocation}
    (h : Invocation.ofArguments arguments = .ok invocation) (setup : Setup) (session : Session) :
    let ran := (invocation.command.run invocation.config : StateM Session Conclusion).run
      { session with journal := [] }
    (session.execute setup arguments).1.status = ran.1.ending.status ∧
      (session.execute setup arguments).1.output =
        ran.1.output invocation.rendering setup.colored ∧
      (session.execute setup arguments).2 = ran.2 := by
  rw [execute, h]
  exact ⟨rfl, rfl, rfl⟩

theorem execute_of_prune {arguments : List String} {invocation : Invocation}
    {request : PruneRequest} {conclusion : Conclusion} {session after : Session}
    (hparsed : Invocation.ofArguments arguments = .ok invocation)
    (hprune : invocation.command = .prune request)
    (hrun : (request.run invocation.config : StateM Session Conclusion).run
      { session with journal := [] } = (conclusion, after)) (setup : Setup) :
    (session.execute setup arguments).1.status = conclusion.ending.status ∧
      (session.execute setup arguments).1.output =
        conclusion.output invocation.rendering setup.colored ∧
      (session.execute setup arguments).2 = after := by
  have hexecute := execute_of_ok hparsed setup session
  have hran : (invocation.command.run invocation.config : StateM Session Conclusion).run
      { session with journal := [] } = (conclusion, after) := by
    rw [hprune]
    exact hrun
  rwa [hran] at hexecute

theorem status_screen_eq_two_iff (halt : Halt) :
    halt.screen.status = 2 ↔ halt ≠ .help ∧ halt ≠ .version := by
  cases halt <;> simp [Halt.screen, Halt.status]

/-- **What the status of a run tells.** Whatever the files and the working directory: when the
arguments ask to remove methods, the status is 2 if and only if the run completes and falls short of
the request, 0 if and only if it completes and does not, and 1 in every other case. Something is
printed if and only if the stages before the save succeed, and then it is the report on the plan,
which says that the output was written exactly if the run completes and is not dry. A run that
completes and is not dry leaves what stays of the input where the output path says, also when it
falls short. -/
theorem execute_prune {arguments : List String} {invocation : Invocation}
    {request : PruneRequest} (hparsed : Invocation.ofArguments arguments = .ok invocation)
    (hprune : invocation.command = .prune request) (setup : Setup) (session : Session) :
    let begun : Session := { session with journal := [] }
    let loads := request.Loads invocation.config begun
    let completes := request.Completes invocation.config begun
    let screen := (session.execute setup arguments).1
    let ended := (session.execute setup arguments).2
    (screen.status = 2 ↔ ∃ catalog selection text,
        completes catalog selection text ∧ request.FallsShort catalog selection text) ∧
      (screen.status = 0 ↔ ∃ catalog selection text,
        completes catalog selection text ∧ ¬ request.FallsShort catalog selection text) ∧
      (screen.status = 1 ↔ ∀ catalog selection text, ¬ completes catalog selection text) ∧
      (screen.output ≠ "" ↔ ∃ catalog selection text, loads catalog selection text) ∧
      (∀ catalog selection text, loads catalog selection text → ∃ written,
        (written = true ↔ request.dryRun = false ∧ completes catalog selection text) ∧
        screen.output = (Report.prune (.ofPlan (selection.plan text) request.input.text
          (request.output?.map Path.text) written)).print setup.colored invocation.rendering) ∧
      ∀ catalog selection text, completes catalog selection text → request.dryRun = false →
        ∃ location mode, session.tree.place session.directory request.target = .ok location ∧
          ended.tree.entry? location = some (.file mode (.text (selection.kept text))) := by
  intro begun loads completes screen ended
  -- the run is named by what comes out of it, and the program shows no more than that
  rcases hrun : (request.run invocation.config : StateM Session Conclusion).run begun with
    ⟨conclusion, after⟩
  obtain ⟨hstatus, houtput, hended⟩ := execute_of_prune hparsed hprune hrun setup
  have hscreen : screen.status = conclusion.ending.status := hstatus
  have hprinted : screen.output = conclusion.output invocation.rendering setup.colored := houtput
  have hafter : ended = after := hended
  rw [hscreen, hprinted, hafter]
  refine ⟨PruneRequest.status_eq_two_iff hrun, PruneRequest.status_eq_zero_iff hrun,
    PruneRequest.status_eq_one_iff hrun, PruneRequest.output_ne_empty_iff hrun _ _, ?_, ?_⟩
  · intro catalog selection text hloads
    exact hloads.output_eq hrun invocation.rendering setup.colored
  · intro catalog selection text hcompletes hdry
    exact hcompletes.entry?_target hdry hrun

/-- One of two methods is missed: the other one is removed, the output is written, and the status
is 2. -/
theorem execute_prune_on_oneFileSession :
    let arguments := ["prune", "S.ts", "-m", "a", "-m", "b"]
    let request : PruneRequest := ⟨⟨"S.ts"⟩, none, false, { methods := ["a", "b"] }⟩
    let ran := PruneRequest.oneFileSession.execute ⟨false, none⟩ arguments
    Invocation.ofArguments arguments = .ok ⟨false, .human, none, .prune request⟩ ∧
      ran.1.status = 2 ∧
      (∃ catalog selection text,
        request.Completes none PruneRequest.oneFileSession catalog selection text ∧
          request.FallsShort catalog selection text) ∧
      ran.1.output ≠ "" ∧
      ran.2.tree.entry? ["work", "S.ts.cleaned"] = some (.file 0o640 (.text "keep();\n")) := by
  -- options are compared by evaluation here, results that may be faults are not
  have hparsed : Invocation.ofArguments ["prune", "S.ts", "-m", "a", "-m", "b"] =
      .ok ⟨false, .human, none, .prune ⟨⟨"S.ts"⟩, none, false, { methods := ["a", "b"] }⟩⟩ := by
    have hsome : (Invocation.ofArguments ["prune", "S.ts", "-m", "a", "-m", "b"]).toOption =
        some ⟨false, .human, none, .prune ⟨⟨"S.ts"⟩, none, false, { methods := ["a", "b"] }⟩⟩ := by
      decide +kernel
    cases hread : Invocation.ofArguments ["prune", "S.ts", "-m", "a", "-m", "b"] with
    | error halt => simp [hread, Except.toOption] at hsome
    | ok invocation => simpa [hread, Except.toOption] using hsome
  have hstatus : (PruneRequest.oneFileSession.execute ⟨false, none⟩
      ["prune", "S.ts", "-m", "a", "-m", "b"]).1.status = 2 := by
    decide +kernel
  obtain ⟨htwo, -, -, hprinted, -, -⟩ :=
    execute_prune hparsed rfl ⟨false, none⟩ PruneRequest.oneFileSession
  obtain ⟨catalog, selection, text, hcompletes, hshort⟩ := htwo.1 hstatus
  refine ⟨hparsed, hstatus, ⟨catalog, selection, text, hcompletes, hshort⟩, ?_, ?_⟩
  · exact hprinted.2 ⟨catalog, selection, text, hcompletes.toLoads⟩
  · decide +kernel

/-- **What the status 2 tells.** Whatever the arguments, the files and the working directory: the
program ends with status 2 if and only if its arguments are refused, in which case nothing is run
and no file is touched, or a run that removes methods completes and falls short of its request, in
which case the output is written unless the run is dry. -/
theorem execute_status_two_iff (setup : Setup) (arguments : List String) (session : Session) :
    let begun : Session := { session with journal := [] }
    let screen := (session.execute setup arguments).1
    let ended := (session.execute setup arguments).2
    screen.status = 2 ↔
      (∃ halt, Invocation.ofArguments arguments = .error halt ∧ halt ≠ .help ∧
        halt ≠ .version ∧ ended = session) ∨
      ∃ invocation request catalog selection text,
        Invocation.ofArguments arguments = .ok invocation ∧
          invocation.command = .prune request ∧
          request.Completes invocation.config begun catalog selection text ∧
          request.FallsShort catalog selection text ∧
          (request.dryRun = false → ∃ location mode,
            session.tree.place session.directory request.target = .ok location ∧
              ended.tree.entry? location = some (.file mode (.text (selection.kept text)))) := by
  intro begun screen ended
  cases hparsed : Invocation.ofArguments arguments with
  | error halt =>
      have hexecute := execute_of_error hparsed setup session
      have hscreen : screen = halt.screen := congrArg Prod.fst hexecute
      have hended : ended = session := congrArg Prod.snd hexecute
      rw [hscreen, status_screen_eq_two_iff]
      constructor
      · rintro ⟨hhelp, hversion⟩
        exact Or.inl ⟨halt, rfl, hhelp, hversion, hended⟩
      · rintro (⟨halt', hsame, hhelp, hversion, -⟩ | ⟨invocation, -, -, -, -, hok, -⟩)
        · obtain rfl := Except.error.inj hsame
          exact ⟨hhelp, hversion⟩
        · cases hok
  | ok invocation =>
      constructor
      · intro htwo
        -- of the commands, only one can fall short
        obtain ⟨request, hprune⟩ := Command.exists_prune_of_status
          ((execute_of_ok hparsed setup session).1.symm.trans htwo)
        rcases hrun : (request.run invocation.config : StateM Session Conclusion).run begun with
          ⟨conclusion, after⟩
        obtain ⟨hstatus, -, hended⟩ := execute_of_prune hparsed hprune hrun setup
        have hafter : ended = after := hended
        obtain ⟨catalog, selection, text, hcompletes, hshort⟩ :=
          (PruneRequest.status_eq_two_iff hrun).1 (hstatus.symm.trans htwo)
        refine Or.inr ⟨invocation, request, catalog, selection, text, rfl, hprune, hcompletes,
          hshort, fun hdry => ?_⟩
        rw [hafter]
        exact hcompletes.entry?_target hdry hrun
      · rintro (⟨halt, hrefused, -⟩ |
          ⟨invocation', request, catalog, selection, text, hsame, hprune, hcompletes, hshort, -⟩)
        · cases hrefused
        · obtain rfl := Except.ok.inj hsame
          obtain ⟨hstatus, -, -⟩ := execute_of_prune hparsed hprune rfl setup
          exact hstatus.trans (PruneRequest.status_of_fallsShort hcompletes hshort rfl)

/-- A depth that is no number gives the status of missed methods, and nothing is run. -/
theorem not_prune_of_status_two :
    ¬ ∀ setup arguments (session : Session),
      (session.execute setup arguments).1.status = 2 →
        ∃ invocation request catalog selection text,
          Invocation.ofArguments arguments = .ok invocation ∧
            invocation.command = .prune request ∧
            request.Completes invocation.config { session with journal := [] } catalog selection
              text ∧
            selection.Misses text := by
  intro hall
  let session : Session :=
    ⟨["work"], ⟨[(["work"], .directory 0o755),
      (["work", "Combat.ts"], .file 0o644 (.text "private a() \x7b\x7d\n"))]⟩, []⟩
  have hstatus : (session.execute ⟨false, none⟩
      ["prune", "Combat.ts", "--lookback-depth", "x"]).1.status = 2 := by
    decide +kernel
  obtain ⟨invocation, -, -, -, -, hparsed, -⟩ := hall _ _ _ hstatus
  have hrefused : (Invocation.ofArguments
      ["prune", "Combat.ts", "--lookback-depth", "x"]).toOption = none := by
    decide +kernel
  rw [hparsed] at hrefused
  cases hrefused

end Session

end Excision

import Excision.Proofs.Layers
import Excision.Proofs.Sessions

/-!
# The course of a run

A run that removes methods goes through its stages in a fixed order: the catalog is loaded, the
methods file is read, a selection is made, the output path is compared with that of the input, the
input is read, and the retained lines are saved. `PruneRequest.Loads` says that all stages before
the save succeed, and with what. It speaks of the session at the start and not of the program, so
the stages can be looked at one by one. `PruneRequest.Completes` says that the save succeeds too,
unless the run is dry.

The program follows these stages (`PruneRequest.run_stages`): where no stage before the save fails
there is a report, and otherwise there is none and no file is touched. The outcome of the stages is
determined (`PruneRequest.Loads.unique`), so a run that loads completes exactly if it does not end
as failed (`PruneRequest.completes_iff`).
-/

set_option autoImplicit false

namespace Excision

open Session

/-! ## Selections -/

namespace Selection

/-- What goes from a text for a selection. -/
def plan (selection : Selection) (text : String) : Plan :=
  selection.settings.cutter.plan (Source.ofText text) selection.methods

/-- What stays of a text. -/
def kept (selection : Selection) (text : String) : String :=
  String.join ((selection.plan text).retained (Source.ofText text))

/-- Some selected method is not found in a text. -/
def Misses (selection : Selection) (text : String) : Prop :=
  ∃ name ∈ selection.methods, ∃ miss,
    selection.settings.cutter.search.find (Source.ofText text).lines name = .error miss

/-- The names that a plan lists as missed tell whether any method is missed. -/
theorem isEmpty_missing_plan_eq_false_iff {selection : Selection} {text : String} :
    (selection.plan text).missing.isEmpty = false ↔ selection.Misses text := by
  have houtcome : ∀ name, (!(selection.settings.cutter.outcome (Source.ofText text) name).isFound)
      = true ↔ ∃ miss,
        selection.settings.cutter.search.find (Source.ofText text).lines name = .error miss := by
    intro name
    rw [Cutter.outcome]
    split <;> simp [Outcome.isFound, *]
  rw [Plan.missing, List.isEmpty_map, plan, Cutter.plan, List.isEmpty_eq_false_iff_exists_mem]
  constructor
  · rintro ⟨outcome, houtcome'⟩
    obtain ⟨hmem, hmissed⟩ := List.mem_filter.1 houtcome'
    obtain ⟨name, hname, rfl⟩ := List.mem_map.1 hmem
    exact ⟨name, hname, (houtcome name).1 hmissed⟩
  · rintro ⟨name, hname, hmiss⟩
    exact ⟨_, List.mem_filter.2 ⟨List.mem_map_of_mem hname, (houtcome name).2 hmiss⟩⟩

end Selection

namespace SelectionRequest

/-- The names in the methods file, as a session holds it. -/
def listedIn (request : SelectionRequest) (session : Session) : Except Failure (List String) :=
  match request.methodsFile with
  | none => .ok []
  | some path =>
    match session.readText path with
    | .error fault => .error (.methods path fault)
    | .ok text => .ok (MethodNames.ofFile text)

/-- Whether methods may be missed: as the command line says, else as the preset says, else as the
defaults of the catalog say; else they may not. -/
def allowsMissingIn (request : SelectionRequest) (catalog : Catalog) : Bool :=
  request.allowsMissing ||
    (((request.preset.bind catalog.find?).bind (·.settings.allowsMissing)).or
      catalog.defaults.allowsMissing).getD false

/-- A selection has the settings that its request chooses. -/
theorem allowsMissing_of_resolveIn {request : SelectionRequest} {catalog : Catalog}
    {listed operands : List String} {selection : Selection}
    (h : request.resolveIn catalog listed operands = .ok selection) :
    selection.settings.allowsMissing = request.allowsMissingIn catalog := by
  let preset := (request.preset.bind catalog.find?).map Preset.settings
  have hdecided := Settings.decidedBy_foldl_apply
    (catalog.defaults :: preset.toList ++ [request.flags])
  have hpreset : preset.bind Layer.allowsMissing =
      (request.preset.bind catalog.find?).bind (·.settings.allowsMissing) :=
    Option.bind_map
  calc selection.settings.allowsMissing
      = (request.flags.allowsMissing.or
          ((preset.bind Layer.allowsMissing).or catalog.defaults.allowsMissing)).getD false := by
        rw [settings_of_resolveIn h, ← Layer.lastSet_three]
        exact hdecided.allowsMissing
    _ = request.allowsMissingIn catalog := by
        rw [hpreset, allowsMissingIn, flags]
        cases request.allowsMissing <;> rfl

theorem listedIn_congr (request : SelectionRequest) {session session' : Session}
    (htree : session'.tree = session.tree) (hdirectory : session'.directory = session.directory) :
    request.listedIn session' = request.listedIn session := by
  rw [listedIn, listedIn, readText_congr htree hdirectory]

theorem run_listed (request : SelectionRequest) (session : Session) :
    (request.listed : StateM Session (Except Failure (List String))).run session =
      (request.listedIn session, session) := by
  unfold SelectionRequest.listed listedIn
  cases request.methodsFile with
  | none => rfl
  | some path =>
      have hread : (FileSystem.readText path : StateM Session (Except FileFault String)).run
          session = (session.readText path, session) := rfl
      simp only [run_bind, hread]
      cases session.readText path <;> rfl

/-- A selection is made exactly if the catalog is loaded, the methods file is read, and the catalog
makes it of the request. -/
theorem run_resolve_eq_ok_iff {request : SelectionRequest} {config : Option Path}
    {operands : List String} {session : Session} {selection : Selection} :
    ((request.resolve config operands : StateM Session (Except Failure Selection)).run session).1 =
        .ok selection ↔
      ∃ catalog path names,
        ((Catalog.load config (FileTree.absolute session.directory) :
          StateM Session (Except CatalogFault LoadedCatalog)).run session).1 =
            .ok ⟨catalog, path⟩ ∧
          request.listedIn session = .ok names ∧
          request.resolveIn catalog names operands = .ok selection := by
  have hwhere : (FileSystem.directory : StateM Session Path).run session =
      (FileTree.absolute session.directory, session) := rfl
  obtain ⟨htree, hdirectory⟩ := quiet_load config (FileTree.absolute session.directory) session
  unfold SelectionRequest.resolve
  rw [run_bind, hwhere]
  simp only [run_bind]
  rcases hload : (Catalog.load config (FileTree.absolute session.directory) :
    StateM Session (Except CatalogFault LoadedCatalog)).run session with
    ⟨fault | ⟨catalog, path⟩, loaded⟩
  · exact ⟨nofun, fun ⟨_, _, _, hcatalog, _⟩ => nomatch hcatalog⟩
  · -- loading keeps records and changes no file, so the methods file still reads the same
    rw [hload] at htree hdirectory
    simp only [run_bind, run_listed, listedIn_congr request htree hdirectory]
    cases hnames : request.listedIn session with
    | error failure => exact ⟨nofun, fun ⟨_, _, _, _, hlisted, _⟩ => nomatch hlisted⟩
    | ok names =>
        cases hselection : request.resolveIn catalog names operands with
        | error fault => simp [hselection]
        | ok made =>
            simp only [hselection, run_pure]
            simp [hselection]

end SelectionRequest

namespace PruneRequest

/-! ## The stages of a run -/

/-- The stages of a run before the save succeed: with a catalog, a selection that the catalog makes
of the request, and the text of the input. -/
structure Loads (request : PruneRequest) (config : Option Path) (session : Session)
    (catalog : Catalog) (selection : Selection) (text : String) : Prop where
  catalogs : ∃ path, ((Catalog.load config (FileTree.absolute session.directory) :
    StateM Session (Except CatalogFault LoadedCatalog)).run session).1 = .ok ⟨catalog, path⟩
  selects : ∃ names, request.selection.listedIn session = .ok names ∧
    request.selection.resolveIn catalog names [] = .ok selection
  distinct : session.identifies request.input request.target = false
  reads : session.readText request.input = .ok text

/-- All stages of a run succeed; a dry run has no save. -/
structure Completes (request : PruneRequest) (config : Option Path) (session : Session)
    (catalog : Catalog) (selection : Selection) (text : String) : Prop
    extends request.Loads config session catalog selection text where
  saves : request.dryRun = false → ∃ after, session.tree.save session.directory request.target
    (selection.kept text) (some request.input) = (.ok (), after)

section Stages

variable {request : PruneRequest} {config : Option Path} {session after : Session}
  {conclusion : Conclusion} {catalog : Catalog} {selection : Selection} {text : String}
  {status : WriteStatus} {tree : FileTree}

/-- What the stages give is determined by the session. -/
theorem Loads.unique {catalog' : Catalog} {selection' : Selection} {text' : String}
    (h : request.Loads config session catalog selection text)
    (h' : request.Loads config session catalog' selection' text') :
    catalog = catalog' ∧ selection = selection' ∧ text = text' := by
  obtain ⟨path, hcatalog⟩ := h.catalogs
  obtain ⟨path', hcatalog'⟩ := h'.catalogs
  obtain ⟨names, hnames, hselection⟩ := h.selects
  obtain ⟨names', hnames', hselection'⟩ := h'.selects
  obtain ⟨rfl, -⟩ := LoadedCatalog.mk.inj (Except.ok.inj (hcatalog.symm.trans hcatalog'))
  obtain rfl := Except.ok.inj (hnames.symm.trans hnames')
  exact ⟨rfl, Except.ok.inj (hselection.symm.trans hselection'),
    Except.ok.inj (h.reads.symm.trans h'.reads)⟩

/-- The selection of a run that loads is the one that the program makes. -/
theorem Loads.run_resolve (h : request.Loads config session catalog selection text) :
    ((request.selection.resolve config [] :
      StateM Session (Except Failure Selection)).run session).1 = .ok selection := by
  obtain ⟨path, hcatalog⟩ := h.catalogs
  obtain ⟨names, hnames, hselection⟩ := h.selects
  exact SelectionRequest.run_resolve_eq_ok_iff.2
    ⟨catalog, path, names, hcatalog, hnames, hselection⟩

/-- A run follows its stages. If one before the save fails, the run ends as failed without a report
and touches no file. If all of them succeed, it reports on the plan, whatever becomes of the
save. -/
theorem run_stages
    (h : (request.run config : StateM Session Conclusion).run session = (conclusion, after)) :
    (∀ catalog selection text, ¬ request.Loads config session catalog selection text) ∧
        (∃ failure, conclusion = .failed failure) ∧ after.tree = session.tree ∨
      ∃ catalog selection text status, request.Loads config session catalog selection text ∧
        conclusion = ⟨some (.prune (request.report ⟨selection.plan text, status⟩)),
          ending ⟨selection.plan text, status⟩ selection.settings⟩ ∧
        session.tree.Saves session.directory (selection.kept text) request.input request.output?
          status after.tree := by
  obtain ⟨htree, hdirectory⟩ := quiet_resolve request.selection config [] session
  rw [PruneRequest.run, run_bind] at h
  rcases hselect : (request.selection.resolve config [] :
    StateM Session (Except Failure Selection)).run session with ⟨failure | selection, resolved⟩
  · -- no selection could be made
    rw [hselect] at h htree
    obtain ⟨rfl, rfl⟩ := Prod.mk.inj h
    refine Or.inl ⟨fun catalog selection text hloads => ?_, ⟨failure, rfl⟩, htree⟩
    have hselected := hloads.run_resolve
    rw [hselect] at hselected
    cases hselected
  · rw [hselect] at h htree hdirectory
    simp only [run_bind, run_checkOutput] at h htree hdirectory
    have hidentifies := identifies_congr htree hdirectory
    have hread := readText_congr htree hdirectory
    cases hdistinct : session.identifies request.input request.target with
    | true =>
        -- the output path was refused
        rw [hidentifies, hdistinct] at h
        obtain ⟨rfl, rfl⟩ := Prod.mk.inj h
        refine Or.inl ⟨fun catalog selection text hloads => ?_, ⟨_, rfl⟩, htree⟩
        exact Bool.false_ne_true (hloads.distinct.symm.trans hdistinct)
    | false =>
        rw [hidentifies, hdistinct] at h
        simp only [Bool.false_eq_true, if_false, run_bind] at h
        rcases hcut : (selection.settings.cutter.run request.input request.output?
          selection.methods : StateM Session (Except StoreFault Run)).run resolved with
          ⟨result, cut⟩
        rw [hcut] at h
        rcases run_cutter_cases hcut with ⟨fault, rfl, hunread, hcuttree⟩ |
          ⟨text, status, htext, rfl, hsaved⟩
        · -- the input could not be read
          obtain ⟨rfl, rfl⟩ := Prod.mk.inj h
          refine Or.inl ⟨fun catalog selection text hloads => ?_, ⟨_, rfl⟩, hcuttree.trans htree⟩
          exact hunread text (hread ▸ hloads.reads)
        · -- all stages succeeded, and what the cutter met was still the tree at the start
          obtain ⟨rfl, rfl⟩ := Prod.mk.inj h
          obtain ⟨catalog, path, names, hcatalog, hnames, hselection⟩ :=
            SelectionRequest.run_resolve_eq_ok_iff.1 (congrArg Prod.fst hselect)
          rw [htree, hdirectory] at hsaved
          rw [hread] at htext
          exact Or.inr ⟨catalog, selection, text, status,
            ⟨⟨path, hcatalog⟩, ⟨names, hnames, hselection⟩, hdistinct, htext⟩, rfl, hsaved⟩

/-- A dry run has nothing to save. Any other run saves to its target, or fails to. -/
theorem saves_cases (h : session.tree.Saves session.directory text request.input request.output?
      status tree) :
    (request.dryRun = true ∧ status = .skipped ∧ tree = session.tree) ∨
      (request.dryRun = false ∧ (∃ fault, status = .failed fault) ∧
        (∀ saved, session.tree.save session.directory request.target text (some request.input) ≠
          (.ok (), saved)) ∧ tree = session.tree) ∨
      (request.dryRun = false ∧ status = .written request.target ∧
        session.tree.save session.directory request.target text (some request.input) =
          (.ok (), tree)) := by
  unfold output? at h
  cases hdry : request.dryRun with
  | true =>
      rw [hdry, if_pos rfl] at h
      cases h with
      | skipped => exact Or.inl ⟨rfl, rfl, rfl⟩
  | false =>
      rw [hdry, if_neg Bool.false_ne_true] at h
      cases h with
      | failed fault hfails => exact Or.inr (Or.inl ⟨rfl, ⟨fault, rfl⟩, hfails, rfl⟩)
      | written hsave => exact Or.inr (Or.inr ⟨rfl, rfl, hsave⟩)

/-- A run that loads completes exactly if its save does not fail. -/
theorem completes_iff (hloads : request.Loads config session catalog selection text)
    (hsaves : session.tree.Saves session.directory (selection.kept text) request.input
      request.output? status tree) :
    request.Completes config session catalog selection text ↔ ∀ fault, status ≠ .failed fault := by
  rcases saves_cases hsaves with ⟨hdry, rfl, -⟩ | ⟨hdry, ⟨fault, rfl⟩, hfails, -⟩ |
    ⟨hdry, rfl, hsave⟩
  · constructor
    · exact fun _ _ => nofun
    · exact fun _ => ⟨hloads, fun hnot => absurd (hdry.symm.trans hnot) nofun⟩
  · constructor
    · intro hcompletes
      obtain ⟨saved, hsave⟩ := hcompletes.saves hdry
      exact absurd hsave (hfails saved)
    · exact fun hunfailed => absurd rfl (hunfailed fault)
  · constructor
    · exact fun _ _ => nofun
    · exact fun _ => ⟨hloads, fun _ => ⟨tree, hsave⟩⟩

/-- What comes out of a run that loads: its report, and a save that fails exactly if the run does
not complete. -/
theorem Loads.conclusion_eq (hloads : request.Loads config session catalog selection text)
    (h : (request.run config : StateM Session Conclusion).run session = (conclusion, after)) :
    ∃ status, conclusion = ⟨some (.prune (request.report ⟨selection.plan text, status⟩)),
        ending ⟨selection.plan text, status⟩ selection.settings⟩ ∧
      (request.Completes config session catalog selection text ↔
        ∀ fault, status ≠ .failed fault) ∧
      session.tree.Saves session.directory (selection.kept text) request.input request.output?
        status after.tree := by
  rcases run_stages h with ⟨hnone, -, -⟩ |
    ⟨catalog', selection', text', status, hloads', hends, hsaves⟩
  · exact absurd hloads (hnone catalog selection text)
  · -- the stages that the run went through are the given ones
    obtain ⟨rfl, rfl, rfl⟩ := hloads.unique hloads'
    exact ⟨status, hends, completes_iff hloads hsaves, hsaves⟩

/-- A run that completes and is not dry has put what stays of the input where the output path
says, whatever its status. -/
theorem Completes.entry?_target
    (hcompletes : request.Completes config session catalog selection text)
    (hdry : request.dryRun = false)
    (h : (request.run config : StateM Session Conclusion).run session = (conclusion, after)) :
    ∃ location mode, session.tree.place session.directory request.target = .ok location ∧
      after.tree.entry? location = some (.file mode (.text (selection.kept text))) := by
  obtain ⟨status, -, hstatus, hsaves⟩ := hcompletes.toLoads.conclusion_eq h
  have hunfailed := hstatus.1 hcompletes
  rcases saves_cases hsaves with ⟨hisdry, -, -⟩ | ⟨-, ⟨fault, hfailed⟩, -, -⟩ | ⟨-, -, hsave⟩
  · exact absurd (hdry.symm.trans hisdry) nofun
  · exact absurd hfailed (hunfailed fault)
  · obtain ⟨location, hplace, -, hentry, -⟩ := FileTree.save_ok hsave
    exact ⟨location, _, hplace, hentry⟩

/-- Unless its save failed, a run ends as complete or incomplete. -/
theorem status_ending_of_not_failed {plan : Plan} {settings : Settings}
    (h : ∀ fault, status ≠ .failed fault) :
    (ending ⟨plan, status⟩ settings).status =
      if plan.missing.isEmpty || settings.allowsMissing then 0 else 2 := by
  cases status with
  | failed fault => exact absurd rfl (h fault)
  | skipped =>
      simp only [ending]
      split <;> rfl
  | written path =>
      simp only [ending]
      split <;> rfl

end Stages

end PruneRequest

end Excision

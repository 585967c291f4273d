import Excision.Proofs.Ancestors
import Excision.Proofs.Lines
import Excision.Proofs.PruneRuns
import Excision.Proofs.SaveRuns

/-!
# What a run does to the files

Of the stages of a run that removes methods, only the save of the output touches a file. So a run
either leaves the tree as it was, or it is a run that writes its output (`PruneRequest.Writes`,
`PruneRequest.run_cases`).

Before the input is loaded, the output path is refused if its real path is that of the input. A path
that names the place of a regular file leads to that file, so a save that replaced the input would
have been refused, if both real paths had been known. They are known in every tree without long
locations. But the real path of one of them may not be known, since the place lies too deep or the
walk to it does, while all files on the way can be opened. Then the two paths are compared as they
are written, and the save may replace the input. `PruneRequest.run_frame` says exactly when it does,
and that a run changes nothing else than what the output path names; `PruneRequest.run_not_frame`
is a run that does.
-/

set_option autoImplicit false

namespace Excision

/-- Whether a conclusion reports that the output was written. -/
def Conclusion.saysWritten (conclusion : Conclusion) : Bool :=
  match conclusion.report with
  | some (.prune report) => report.written
  | _ => false

namespace PruneRequest

open Session FileTree

/-- What a run is that writes its output: methods are selected, the input is read, its path and
that of the output are not seen to mean the same file, and the retained lines are saved. -/
structure Writes (request : PruneRequest) (config : Option Path) (session : Session)
    (conclusion : Conclusion) (after : FileTree) (selection : Selection) (text : String) :
    Prop where
  selects : ((request.selection.resolve config [] :
    StateM Session (Except Failure Selection)).run session).1 = .ok selection
  reads : session.tree.readText session.directory request.input = .ok text
  distinct : session.identifies request.input request.target = false
  notDry : request.dryRun = false
  saves : session.tree.save session.directory request.target
    (String.join ((selection.settings.cutter.plan (Source.ofText text) selection.methods).retained
      (Source.ofText text))) (some request.input) = (.ok (), after)
  reports : conclusion.report = some (.prune (.ofPlan
    (selection.settings.cutter.plan (Source.ofText text) selection.methods) request.input.text
    (some request.target.text) true))
  ends : conclusion.ending.status ≠ 1

/-- A run leaves the tree as it was, or writes its output. -/
theorem run_cases {request : PruneRequest} {config : Option Path} {session after : Session}
    {conclusion : Conclusion}
    (h : (request.run config : StateM Session Conclusion).run session = (conclusion, after)) :
    conclusion.saysWritten = false ∧ after.tree = session.tree ∨
      ∃ selection text, request.Writes config session conclusion after.tree selection text := by
  rcases run_stages h with ⟨-, ⟨failure, rfl⟩, hsame⟩ |
    ⟨catalog, selection, text, status, hloads, rfl, hsaves⟩
  · exact Or.inl ⟨rfl, hsame⟩
  · rcases saves_cases hsaves with ⟨-, rfl, hsame⟩ | ⟨-, ⟨fault, rfl⟩, -, hsame⟩ |
      ⟨hdry, rfl, hsave⟩
    · exact Or.inl ⟨rfl, hsame⟩
    · exact Or.inl ⟨rfl, hsame⟩
    · refine Or.inr ⟨selection, text, hloads.run_resolve, hloads.reads, hloads.distinct, hdry,
        hsave, ?_, ?_⟩
      · show some (Report.prune (request.report _)) = _
        rw [report, output?, hdry]
        rfl
      · have hunfailed : ∀ fault, WriteStatus.written request.target ≠ .failed fault :=
          fun _ => nofun
        rw [status_ending_of_not_failed hunfailed]
        split <;> decide

/-- **What a run does to the files.** Whatever the tree, the working directory and the request: the
regular file to which the input path leads keeps its text and permissions, unless the run reports
that it wrote its output and the output path names the place of that very file. This happens only
where the two paths are written differently and the real path of one of them is not known, so it
never happens in a tree without long locations. No entry changes but the one that the output path
names; the tree changes only in a run that is not dry and reports that it wrote its output; the
output is then a regular file with the retained lines and the permissions of the input; and a run
that ends with status 1 leaves the tree as it was. -/
theorem run_frame (request : PruneRequest) (config : Option Path) (session : Session) :
    let ended := (Command.run (.prune request) config : StateM Session Conclusion).run session
    let conclusion := ended.1
    let before := session.tree
    let after := ended.2.tree
    (∀ source mode content, before.resolve session.directory request.input = .ok source →
        before.entry? source = some (.file mode content) →
        (after.entry? source = some (.file mode content) ∨
            conclusion.saysWritten = true ∧
              before.place session.directory request.target = .ok source) ∧
          (conclusion.saysWritten = true →
            before.place session.directory request.target = .ok source →
              request.input.isSame request.target = false ∧
                (before.canonical? session.directory request.input = none ∨
                  before.canonical? session.directory request.target = none)) ∧
          (before.IsShallow → after.entry? source = some (.file mode content))) ∧
      (∀ location, before.place session.directory request.target ≠ .ok location →
        after.entry? location = before.entry? location) ∧
      (after ≠ before → request.dryRun = false ∧ conclusion.saysWritten = true) ∧
      (conclusion.saysWritten = true → ∃ selection text source mode location,
        ((request.selection.resolve config [] :
            StateM Session (Except Failure Selection)).run session).1 = .ok selection ∧
          before.resolve session.directory request.input = .ok source ∧
          before.entry? source = some (.file mode (.text text)) ∧
          before.place session.directory request.target = .ok location ∧
          let plan := selection.settings.cutter.plan (Source.ofText text) selection.methods
          conclusion.report = some (.prune
            (.ofPlan plan request.input.text (some request.target.text) true)) ∧
          after.entry? location =
            some (.file mode (.text (String.join (plan.retained (Source.ofText text)))))) ∧
      (conclusion.ending.status = 1 → after = before) := by
  intro ended conclusion before after
  have hended : (request.run config : StateM Session Conclusion).run session =
      (conclusion, ended.2) := rfl
  rcases run_cases hended with ⟨hunwritten, hsame⟩ | ⟨selection, text, hwrites⟩
  · have hafter : after = before := hsame
    rw [hafter, hunwritten]
    exact ⟨fun _ _ _ _ hfile => ⟨Or.inl hfile, nofun, fun _ => hfile⟩, fun _ _ => rfl,
      fun hne => absurd rfl hne, nofun, fun _ => rfl⟩
  · obtain ⟨location, hplace, -, hlocation, hothers⟩ := FileTree.save_ok hwrites.saves
    obtain ⟨source, mode, hsource, hfile⟩ := (FileTree.readText_eq_ok_iff text).1 hwrites.reads
    rw [FileTree.saveMode_of_file hsource hfile] at hlocation
    have hwritten : conclusion.saysWritten = true := by
      rw [Conclusion.saysWritten, hwrites.reports]
      rfl
    have hkept : source ≠ location → after.entry? source = some (.file mode (.text text)) :=
      fun hne => (hothers source hne).trans hfile
    -- a replaced input is an output that leads to the same place and was not refused
    have hunseen : before.place session.directory request.target = .ok source →
        request.input.isSame request.target = false ∧
          (before.canonical? session.directory request.input = none ∨
            before.canonical? session.directory request.target = none) := by
      intro hnamed
      exact unseen_of_not_identifies hwrites.distinct hsource
        (FileTree.resolve_of_place hnamed hfile)
    refine ⟨fun source' mode' content hsource' hfile' => ?_, fun other hother => ?_,
      fun _ => ⟨hwrites.notDry, hwritten⟩, fun _ => ?_, fun hstatus => absurd hstatus hwrites.ends⟩
    · obtain rfl : source = source' := Except.ok.inj (hsource.symm.trans hsource')
      rw [hfile] at hfile'
      obtain ⟨rfl, rfl⟩ := Entry.file.inj (Option.some.inj hfile')
      refine ⟨?_, fun _ => hunseen, fun hshallow => hkept ?_⟩
      · by_cases hne : source = location
        · subst hne
          exact Or.inr ⟨hwritten, hplace⟩
        · exact Or.inl (hkept hne)
      · rintro rfl
        -- without long locations both real paths are known
        have htarget := FileTree.resolve_of_place hplace hfile
        rcases (hunseen hplace).2 with hnone | hnone
        · rw [hshallow.canonical?_of_resolve hsource] at hnone
          cases hnone
        · rw [hshallow.canonical?_of_resolve htarget] at hnone
          cases hnone
    · exact hothers other fun heq => hother (heq ▸ hplace)
    · exact ⟨selection, text, source, mode, location, hwrites.selects, hsource, hfile, hplace,
        hwrites.reports, hlocation⟩

/-- A session whose working directory holds one file. -/
def oneFileSession : Session where
  directory := ["work"]
  tree := ⟨[(["work"], .directory 0o755),
    (["work", "S.ts"], .file 0o640 (.text "private a() \x7b\x7d\nkeep();\n"))]⟩
  journal := []

/-- The file keeps its text and permissions, and the output stands beside it. -/
theorem run_frame_on_oneFileSession :
    let request : PruneRequest := ⟨⟨"S.ts"⟩, none, false, { methods := ["a"] }⟩
    let after := ((Command.run (.prune request) none : StateM Session Conclusion).run
      oneFileSession).2.tree
    oneFileSession.tree.resolve oneFileSession.directory request.input = .ok ["work", "S.ts"] ∧
      after.entry? ["work", "S.ts"] =
        some (.file 0o640 (.text "private a() \x7b\x7d\nkeep();\n")) ∧
      after.entry? ["work", "S.ts.cleaned"] = some (.file 0o640 (.text "keep();\n")) := by
  intro request after
  have hsource : oneFileSession.tree.resolve oneFileSession.directory request.input =
      .ok ["work", "S.ts"] := by
    have hsome : (oneFileSession.tree.resolve oneFileSession.directory request.input).toOption =
        some ["work", "S.ts"] := by decide +kernel
    cases hresolve : oneFileSession.tree.resolve oneFileSession.directory request.input with
    | error fault => simp [hresolve, Except.toOption] at hsome
    | ok location => simpa [hresolve, Except.toOption] using hsome
  refine ⟨hsource, ?_, ?_⟩
  · have hfile : oneFileSession.tree.entry? ["work", "S.ts"] =
        some (.file 0o640 (.text "private a() \x7b\x7d\nkeep();\n")) := by decide +kernel
    obtain ⟨-, -, hkept⟩ := (run_frame request none oneFileSession).1 _ _ _ hsource hfile
    exact hkept (by decide +kernel)
  · decide +kernel

/-! ## An input out of sight

The real path of `deepSession`'s file takes more bytes than a path may have, but a link leads to the
directory that holds it. The two paths of `deepRequest` go through this link and are written
differently, so nothing tells that they mean the same file. -/

/-- A name of as many bytes as a name may have. -/
def longName : String := Text.word 'n' 255

/-- The location some directories of that name down. -/
def deep (depth : Nat) : Location := "work" :: List.replicate depth longName

/-- A session with a file sixteen names down and a link to the directory that holds it. -/
def deepSession : Session where
  directory := ["work"]
  tree := ⟨(["work", "l"], .link ⟨"/".intercalate (List.replicate 15 longName)⟩) ::
    (deep 16, .file 0o640 (.text "private a() \x7b\x7d\nkeep();\n")) ::
    (List.range 16).map fun depth => (deep depth, .directory 0o755)⟩
  journal := []

/-- A run whose output path leads through the link to its input. -/
def deepRequest : PruneRequest where
  input := ⟨"l/" ++ longName⟩
  output := some ⟨"./l/" ++ longName⟩
  dryRun := false
  selection := { methods := ["a"] }

section Deep

theorem longName_eq : longName = Text.word 'n' 255 := rfl

theorem utf8ByteSize_longName : longName.utf8ByteSize = 255 := by
  have hone : 'n'.utf8Size = 1 := rfl
  rw [longName_eq, Text.utf8ByteSize_word, hone]

theorem not_mem_longName {c : Char} (h : c ≠ 'n') : c ∉ longName.toList := by
  intro hmem
  rw [longName_eq, Text.toList_word] at hmem
  exact h (List.eq_of_mem_replicate hmem)

theorem longName_ne {other : String} (h : other.utf8ByteSize ≠ 255) : longName ≠ other := by
  rintro rfl
  exact h utf8ByteSize_longName

theorem longName_ne_empty : longName ≠ "" := longName_ne (by decide)

theorem deep_concat (depth : Nat) : deep depth ++ [longName] = deep (depth + 1) := by
  rw [deep, deep, List.replicate_succ', List.cons_append]

theorem deep_injective : Function.Injective deep := by
  intro depth other h
  simpa [deep] using congrArg List.length h

theorem link_ne_deep (depth : Nat) : ["work", "l"] ≠ deep depth := by
  intro h
  obtain rfl : depth = 1 := by simpa [deep] using congrArg List.length h
  exact longName_ne (by decide) (List.cons.inj (List.cons.inj h).2).1.symm

theorem nodup_deepSession : (deepSession.tree.entries.map Prod.fst).Nodup := by
  have hdirectories : ((List.range 16).map deep).Nodup := List.nodup_range.map deep_injective
  simp only [deepSession, List.map_cons, List.map_map, Function.comp_def, List.nodup_cons,
    List.mem_cons, List.mem_map, not_or, not_exists, not_and]
  refine ⟨⟨link_ne_deep 16, fun depth _ h => link_ne_deep depth h.symm⟩, ?_, hdirectories⟩
  intro depth hdepth h
  rw [List.mem_range, deep_injective h] at hdepth
  exact Nat.lt_irrefl _ hdepth

theorem stands_of_mem {location : Location} {entry : Entry} (hne : location ≠ [])
    (h : (location, entry) ∈ deepSession.tree.entries) :
    deepSession.tree.entry? location = some entry := by
  rw [entry?_of_ne_nil _ hne]
  exact (lookup_eq_some_iff_mem nodup_deepSession).2 h

theorem directory_deep (depth : Nat) (h : depth < 16) :
    deepSession.tree.entry? (deep depth) = some (.directory 0o755) := by
  refine stands_of_mem (List.cons_ne_nil _ _) ?_
  exact List.mem_cons_of_mem _ (List.mem_cons_of_mem _
    (List.mem_map.2 ⟨depth, List.mem_range.2 h, rfl⟩))

theorem file_deepest : deepSession.tree.entry? (deep 16) =
    some (.file 0o640 (.text "private a() \x7b\x7d\nkeep();\n")) :=
  stands_of_mem (List.cons_ne_nil _ _) (List.mem_cons_of_mem _ List.mem_cons_self)

theorem link_stands : deepSession.tree.entry? ["work", "l"] =
    some (.link ⟨"/".intercalate (List.replicate 15 longName)⟩) :=
  stands_of_mem (List.cons_ne_nil _ _) List.mem_cons_self

/-- Walks go down from directory to directory. -/
theorem leads_deep {links : Nat} {rest : List String} {there : Location} (depth more : Nat)
    (h : depth + more < 16)
    (hrest : Leads deepSession.tree links (deep (depth + more)) rest there) :
    Leads deepSession.tree links (deep depth) (List.replicate more longName ++ rest) there := by
  induction more generalizing depth with
  | zero => exact hrest
  | succ more ih =>
      have hnext : deepSession.tree.entry? (deep depth ++ [longName]) =
          some (.directory 0o755) := by
        rw [deep_concat]
        exact directory_deep _ (by omega)
      refine .down (directory_deep _ (by omega)) (longName_ne (by decide)) (longName_ne (by decide))
        (Nat.le_of_eq utf8ByteSize_longName) hnext (by simp) ?_
      rw [deep_concat]
      refine ih (depth + 1) (by omega) ?_
      rwa [Nat.add_right_comm, Nat.add_assoc]

theorem pieces_link : Path.pieces ⟨"/".intercalate (List.replicate 15 longName)⟩ =
    List.replicate 15 longName :=
  Path.pieces_intercalate (by simp) fun _ hpiece =>
    List.eq_of_mem_replicate hpiece ▸ (not_mem_longName (by decide))

theorem pieces_input : deepRequest.input.pieces = ["l", longName] :=
  (Path.pieces_append_slash "l" longName).trans
    (congrArg (["l"] ++ ·) (Path.pieces_of_slash_not_mem (not_mem_longName (by decide))))

theorem pieces_target : deepRequest.target.pieces = [".", "l", longName] :=
  (Path.pieces_append_slash "./l" longName).trans
    (congrArg ([".", "l"] ++ ·) (Path.pieces_of_slash_not_mem (not_mem_longName (by decide))))

theorem empty_not_mem_pieces :
    "" ∉ deepRequest.input.pieces ∧ "" ∉ deepRequest.target.pieces := by
  rw [pieces_input, pieces_target]
  simpa using longName_ne_empty

theorem follow_link : Path.steps ⟨"/".intercalate (List.replicate 15 longName)⟩ =
      List.replicate 15 longName ∧
    ∀ here, origin here ⟨"/".intercalate (List.replicate 15 longName)⟩ = here := by
  have hpieces : "" ∉ Path.pieces ⟨"/".intercalate (List.replicate 15 longName)⟩ := by
    rw [pieces_link]
    exact fun hmem => longName_ne_empty (List.eq_of_mem_replicate hmem).symm
  constructor
  · rw [Path.steps_of_not_mem hpieces, pieces_link]
  · intro here
    rw [origin, Path.isAbsolute_of_not_mem hpieces, if_neg Bool.false_ne_true]

theorem leads_link {rest : List String} {there : Location}
    (hrest : Leads deepSession.tree 39 (deep 15) rest there) :
    Leads deepSession.tree 40 (deep 0) ("l" :: rest) there := by
  obtain ⟨hsteps, horigin⟩ := follow_link
  refine .follow (directory_deep _ (by decide)) (by decide) (by decide) (by decide) link_stands ?_
  rw [horigin, hsteps]
  exact leads_deep 0 15 (by decide) hrest

/-- The walk down to the file is too long to be written, at its last step. -/
theorem spells_deep (links depth more : Nat) (h : depth + more = 15) :
    deepSession.tree.spells links (deep depth) (List.replicate (more + 1) longName) = false := by
  induction more generalizing depth with
  | zero =>
      obtain rfl : depth = 15 := h
      rw [List.replicate_one, spells_down (longName_ne (by decide)) (longName_ne (by decide))
        (deep_concat 15 ▸ file_deepest) (by simp), deep_concat]
      -- the path of the file has too many bytes, while that of its directory is still written
      have hlong : spelledSize (deep 16) = 4101 := by
        simp only [spelledSize, deep, List.replicate, utf8ByteSize_longName]
        rfl
      rw [isSpellable, hlong]
      rfl
  | succ more ih =>
      rw [List.replicate_succ, spells_down (longName_ne (by decide)) (longName_ne (by decide))
        (deep_concat depth ▸ directory_deep _ (by omega)) (by simp), deep_concat,
          ih (depth + 1) (by omega),
        Bool.and_false]

/-- A path that ends with one long name is short enough to be opened. -/
theorem checkPath_append_longName {front : String} (hnul : '\x00' ∉ front.toList)
    (hsize : front.utf8ByteSize < 256) : checkPath ⟨front ++ longName⟩ = .ok () := by
  have hcontains : (front ++ longName).toList.contains '\x00' = false := by
    rw [Bool.eq_false_iff, ne_eq, List.contains_iff_mem, String.toList_append, List.mem_append,
      not_or]
    exact ⟨hnul, not_mem_longName (by decide)⟩
  have hsum : (front ++ longName).utf8ByteSize = front.utf8ByteSize + 255 := by
    rw [String.utf8ByteSize_append, utf8ByteSize_longName]
  have hne : front ++ longName ≠ "" := by
    intro h
    rw [h, String.utf8ByteSize_empty] at hsum
    omega
  unfold checkPath
  rw [hcontains, if_neg Bool.false_ne_true, if_neg hne, if_neg]
  rw [hsum, pathSizeBound]
  omega

theorem resolve_input :
    deepSession.tree.resolve deepSession.directory deepRequest.input = .ok (deep 16) := by
  obtain ⟨hpieces, -⟩ := empty_not_mem_pieces
  rw [resolve_eq_ok_iff, Path.steps_of_not_mem hpieces, pieces_input, origin,
    Path.isAbsolute_of_not_mem hpieces, if_neg Bool.false_ne_true]
  refine ⟨checkPath_append_longName (by decide) (by decide), leads_link ?_⟩
  rw [← deep_concat 15]
  refine .down (directory_deep _ (by decide)) (longName_ne (by decide)) (longName_ne (by decide))
    (Nat.le_of_eq utf8ByteSize_longName) (deep_concat 15 ▸ file_deepest) (by simp) .arrive

theorem place_target :
    deepSession.tree.place deepSession.directory deepRequest.target = .ok (deep 16) := by
  obtain ⟨-, hpieces⟩ := empty_not_mem_pieces
  refine place_eq_ok_iff.2 ⟨checkPath_append_longName (by decide) (by decide),
    Path.hasTrailingSlash_of_not_mem hpieces, [".", "l"], longName, deep 15, ?_,
    longName_ne (by decide), longName_ne (by decide), Nat.le_of_eq utf8ByteSize_longName, ?_,
    (deep_concat 15).symm⟩
  · rw [Path.names_of_not_mem hpieces, pieces_target]
    rfl
  · rw [origin, Path.isAbsolute_of_not_mem hpieces, if_neg Bool.false_ne_true]
    exact .stay (directory_deep 0 (by decide))
      (leads_link (.stay (directory_deep _ (by decide)) .arrive))

theorem saveDirectory_target : saveDirectory deepRequest.target = ⟨"./l"⟩ := by
  obtain ⟨-, hpieces⟩ := empty_not_mem_pieces
  have habsolute := Path.isAbsolute_of_not_mem hpieces
  have hroot : deepRequest.target.root = "." := by
    rw [Path.root, habsolute, pieces_target]
    rfl
  have hidle : Path.dropIdleEnd ["", "l", longName] = ["", "l", longName] := by
    have hdot : longName ≠ "." := longName_ne (by decide)
    simp [Path.dropIdleEnd, Path.isIdle, longName_ne_empty, hdot]
  have hbody : deepRequest.target.body = ["", "l", longName] := by
    rw [Path.body, habsolute, hroot, pieces_target]
    rfl
  rw [saveDirectory, Path.parent?, hbody, hidle, hroot]
  decide

theorem resolve_saveDirectory :
    deepSession.tree.resolve deepSession.directory ⟨"./l"⟩ = .ok (deep 15) := by
  rw [resolve_eq_ok_iff]
  have hsteps : Path.steps ⟨"./l"⟩ = [".", "l"] := by decide
  rw [hsteps]
  exact ⟨by rfl, .stay (directory_deep 0 (by decide)) (leads_link .arrive)⟩

/-- Without the real path of the input the two paths are compared as they are written. -/
theorem not_identifies : deepSession.identifies deepRequest.input deepRequest.target = false := by
  obtain ⟨hpieces, hpieces'⟩ := empty_not_mem_pieces
  -- the walk goes through the link and then down to where it is too long
  have hspells : deepSession.tree.spells maxLinks (origin deepSession.directory deepRequest.input)
      deepRequest.input.steps = false := by
    rw [Path.steps_of_not_mem hpieces, pieces_input, origin, Path.isAbsolute_of_not_mem hpieces,
      if_neg Bool.false_ne_true]
    obtain ⟨hsteps, horigin⟩ := follow_link
    refine (spells_follow (by decide) (by decide) link_stands).trans ?_
    rw [horigin, hsteps]
    exact (congrArg _ (spells_deep 39 0 15 rfl)).trans (Bool.and_false _)
  have hreal : deepSession.tree.canonical? deepSession.directory deepRequest.input = none := by
    rw [canonical?_of_resolve resolve_input, hspells, if_neg Bool.false_ne_true]
  have hroot : deepRequest.input.root = "" := by
    rw [Path.root, Path.isAbsolute_of_not_mem hpieces, pieces_input]
    rfl
  have hroot' : deepRequest.target.root = "." := by
    rw [Path.root, Path.isAbsolute_of_not_mem hpieces', pieces_target]
    rfl
  rw [identifies, hreal]
  refine beq_eq_false_iff_ne.2 fun hsame => ?_
  rw [Path.components, Path.components, Prod.mk.injEq, hroot, hroot'] at hsame
  exact absurd hsame.1 (by decide)

theorem find_projectFile :
    ((ProjectFile.find ⟨"/work"⟩ : StateM Session (Option Path)).run deepSession).1 = none := by
  decide +kernel

theorem loads_deep : deepRequest.Loads none deepSession Catalog.builtin ⟨.builtin, ["a"]⟩
    "private a() \x7b\x7d\nkeep();\n" where
  catalogs := by
    have hwhere : absolute deepSession.directory = ⟨"/work"⟩ := by decide
    rw [hwhere]
    exact ⟨none, run_load_of_not_found find_projectFile⟩
  selects := ⟨[], rfl, rfl⟩
  distinct := not_identifies
  reads := (readText_eq_ok_iff _).2 ⟨deep 16, 0o640, resolve_input, file_deepest⟩

/-- Any text can be saved to the output path. -/
theorem saves_deep (text : String) : ∃ after, deepSession.tree.save deepSession.directory
    deepRequest.target text (some deepRequest.input) = (.ok (), after) := by
  have htext : text = String.join [text] := by simp
  have hsaveable : Saveable .usual deepSession.tree deepSession.directory deepRequest.target [text]
      (some deepRequest.input) (deep 16) := {
    allowed := Conditions.usual_allow _ _
    spelled := by
      rw [saveDirectory_target]
      rfl
    parent := by
      rw [saveDirectory_target]
      exact ⟨deep 15, 0o755, resolve_saveDirectory, directory_deep _ (by decide)⟩
    place := place_target
    free := fun mode h => by
      rw [file_deepest] at h
      cases h }
  rw [htext, FileTree.save_eq_saveUnder]
  rcases saveUnder_cases .usual deepSession.tree deepSession.directory deepRequest.target [text]
    (some deepRequest.input) with ⟨location, -, hsaved⟩ | ⟨hnot, -⟩
  · exact ⟨_, hsaved⟩
  · exact absurd hsaveable (hnot _)

theorem completes_deep : deepRequest.Completes none deepSession Catalog.builtin ⟨.builtin, ["a"]⟩
    "private a() \x7b\x7d\nkeep();\n" :=
  ⟨loads_deep, fun _ => saves_deep _⟩

/-- Not every run leaves its input as it was: the run on `deepSession` puts its output there. -/
theorem run_not_frame :
    ¬ ∀ (request : PruneRequest) (config : Option Path) (session : Session) (source : Location)
      (mode : Nat) (content : Content),
      session.tree.resolve session.directory request.input = .ok source →
      session.tree.entry? source = some (.file mode content) →
      FileTree.entry? ((Command.run (.prune request) config : StateM Session Conclusion).run
        session).2.tree source = some (.file mode content) := by
  intro h
  obtain ⟨location, mode, hplace, houtput⟩ :=
    completes_deep.entry?_target rfl (Prod.eta _).symm
  obtain rfl := Except.ok.inj (place_target.symm.trans hplace)
  have hkept := h deepRequest none deepSession (deep 16) _ _ resolve_input file_deepest
  rw [Command.run] at hkept
  -- the input would have to hold its text and the retained lines at once
  have htext := Content.text.inj (Entry.file.inj (Option.some.inj (hkept.symm.trans houtput))).2
  exact absurd htext (by decide +kernel)

end Deep

end PruneRequest

end Excision

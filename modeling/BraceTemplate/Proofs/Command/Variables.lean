/-
# BraceTemplate.Proofs.Command.Variables — the variables of a render command

A render command reads variables from four sources: the data files of the configuration, the
variables in the configuration, the data files named on the command line, and the assignments
(`Job.Sources`). The data files named on the command line are merged with each other before they are
merged into what the configuration gives; everything else is merged one by one
(`Job.context_of_gather`). The result is that of merging all sources one by one unless a data file
hides a map of the configuration from a map in a later data file (`Job.gather_hides`).
-/
import Mathlib
import BraceTemplate.Command.Job
import BraceTemplate.Files.Tree
import BraceTemplate.Proofs.Values.Merge

namespace BraceTemplate

set_option autoImplicit false

open Context (mergeAll)

/-! ## Commands in sequence -/

/-- A sequence of two commands succeeds if the first one does, and the second one behind it. -/
theorem run_bind_eq_ok {ε σ α β : Type} {x : ExceptT ε (StateM σ) α}
    {f : α → ExceptT ε (StateM σ) β} {s t : σ} {b : β} :
    (x >>= f).run.run s = (.ok b, t) ↔
      ∃ a u, x.run.run s = (.ok a, u) ∧ (f a).run.run u = (.ok b, t) := by
  rw [ExceptT.run_bind, StateT.run_bind]
  obtain ⟨result, u⟩ : Except ε α × σ := x.run.run s
  cases result with
  | ok a =>
      constructor
      · exact fun second => ⟨a, u, rfl, second⟩
      · rintro ⟨_, _, ⟨⟩, second⟩
        exact second
  | error e => exact ⟨nofun, nofun⟩

theorem run_pure_eq_ok {ε σ α : Type} {a b : α} {s t : σ} :
    (pure a : ExceptT ε (StateM σ) α).run.run s = (.ok b, t) ↔ a = b ∧ s = t := by
  constructor
  · rintro ⟨⟩
    exact ⟨rfl, rfl⟩
  · rintro ⟨rfl, rfl⟩
    rfl

theorem run_mk_eq_ok {ε σ α : Type} {x : Except ε α} {b : α} {s t : σ} :
    (ExceptT.mk (pure x) : ExceptT ε (StateM σ) α).run.run s = (.ok b, t) ↔ x = .ok b ∧ s = t := by
  constructor
  · rintro ⟨⟩
    exact ⟨rfl, rfl⟩
  · rintro ⟨rfl, rfl⟩
    rfl

/-- A data file in a tree of files gives variables. -/
def Data.Loaded (tree : FileTree) (current : List String) (path : String) (c : Context) : Prop :=
  ((Data.load (FileTree.files current) path).run.run tree).1 = .ok c

namespace Data

variable {tree tree' : FileTree} {current : List String} {c : Context}

theorem Loaded.unique {path : String} {d : Context} (loaded : Loaded tree current path c)
    (loaded' : Loaded tree current path d) : c = d :=
  Except.ok.inj (loaded.symm.trans loaded')

/-- A data file gives the variables in its text, and reading it changes nothing. -/
theorem load_run (tree : FileTree) (current : List String) (path : String) :
    (load (FileTree.files current) path).run.run tree =
      (match format? path with
        | none => .error (.dataUnsupported path)
        | some format =>
            match tree.read? current path with
            | none => .error (.dataUnreadable path)
            | some text => parse path format text, tree) := by
  rw [load]
  cases format? path with
  | none => rfl
  | some format =>
      rw [ExceptT.run_bind, StateT.run_bind]
      cases read : tree.read? current path with
      | none =>
          have first : (liftM ((FileTree.files current).read path) :
              ExceptT Failure (StateM FileTree) (Option String)).run.run tree =
                (.ok none, tree) := by
            rw [← read]
            rfl
          rw [first]
          rfl
      | some text =>
          have first : (liftM ((FileTree.files current).read path) :
              ExceptT Failure (StateM FileTree) (Option String)).run.run tree =
                (.ok (some text), tree) := by
            rw [← read]
            rfl
          rw [first]
          rfl

theorem load_eq_ok_iff {path : String} :
    (load (FileTree.files current) path).run.run tree = (.ok c, tree') ↔
      Loaded tree current path c ∧ tree = tree' := by
  rw [Loaded, load_run]
  exact Prod.mk.injEq .. ▸ Iff.rfl

/-- Data files are merged into variables one by one. -/
theorem foldlM_load_eq_ok_iff {base : Context} {paths : List String} :
    (paths.foldlM
        (fun (c : Context) path => do return c.merge (← load (FileTree.files current) path))
        base).run.run tree = (.ok c, tree') ↔
      (∃ contexts, List.Forall₂ (Loaded tree current) paths contexts ∧
        c = contexts.foldl Context.merge base) ∧ tree = tree' := by
  induction paths generalizing base with
  | nil =>
      rw [List.foldlM_nil, run_pure_eq_ok]
      simp only [List.forall₂_nil_left_iff, exists_eq_left, List.foldl_nil, eq_comm]
  | cons path paths ih =>
      rw [List.foldlM_cons, run_bind_eq_ok]
      constructor
      · rintro ⟨_, _, first, rest⟩
        obtain ⟨d, _, read, merged⟩ := run_bind_eq_ok.1 first
        obtain ⟨rfl, rfl⟩ := run_pure_eq_ok.1 merged
        obtain ⟨loaded, rfl⟩ := load_eq_ok_iff.1 read
        obtain ⟨⟨contexts, others, rfl⟩, same⟩ := ih.1 rest
        exact ⟨⟨d :: contexts, .cons loaded others, rfl⟩, same⟩
      · rintro ⟨⟨_, _ | ⟨loaded, others⟩, rfl⟩, same⟩
        refine ⟨_, tree, run_bind_eq_ok.2 ⟨_, tree, load_eq_ok_iff.2 ⟨loaded, rfl⟩,
          run_pure_eq_ok.2 ⟨rfl, rfl⟩⟩, ih.2 ⟨⟨_, others, rfl⟩, same⟩⟩

theorem loadAll_eq_ok_iff {paths : List String} :
    (loadAll (FileTree.files current) paths).run.run tree = (.ok c, tree') ↔
      (∃ contexts, List.Forall₂ (Loaded tree current) paths contexts ∧ c = mergeAll contexts) ∧
        tree = tree' :=
  foldlM_load_eq_ok_iff

end Data

namespace Job

variable {tree tree' : FileTree} {current : List String}

/-- Assignments are merged one by one. -/
theorem assignAll_eq_ok_iff {base c : Context} {assignments : List String} :
    assignAll base assignments = .ok c ↔
      ∃ contexts, List.Forall₂ (fun text c => Assignment.parse text = .ok c) assignments contexts ∧
        c = contexts.foldl Context.merge base := by
  rw [assignAll]
  induction assignments generalizing base with
  | nil =>
      simp only [List.foldlM_nil, List.forall₂_nil_left_iff, exists_eq_left, List.foldl_nil]
      exact ⟨fun same => (Except.ok.inj same).symm, fun same => congrArg Except.ok same.symm⟩
  | cons text assignments ih =>
      rw [List.foldlM_cons]
      constructor
      · intro assigned
        cases parsed : Assignment.parse text with
        | error failure =>
            rw [parsed] at assigned
            cases assigned
        | ok d =>
            rw [parsed] at assigned
            obtain ⟨contexts, others, rfl⟩ := ih.1 assigned
            exact ⟨d :: contexts, .cons parsed others, rfl⟩
      · rintro ⟨_, _ | ⟨parsed, others⟩, rfl⟩
        rw [parsed]
        exact ih.2 ⟨_, others, rfl⟩

/-- The variables that the sources of a render command give: the data files of the configuration,
the data files named on the command line, and the assignments. -/
structure Sources (tree : FileTree) (current : List String) (s : Settings) (r : RenderRequest)
    (configured named assigned : List Context) : Prop where
  configured : List.Forall₂ (Data.Loaded tree current)
    (s.config.dataFiles.map (Path.join s.baseDir)) configured
  named : List.Forall₂ (Data.Loaded tree current) r.dataFiles named
  assigned : List.Forall₂ (fun text c => Assignment.parse text = .ok c) r.assignments assigned

/-- The variables of all sources in the order of precedence, merged one by one. -/
def inOrder (s : Settings) (configured named assigned : List Context) : Context :=
  mergeAll (configured ++ s.config.vars :: (named ++ assigned))

/-- No data file named on the command line hides a map of the configuration from a map in a later
one. -/
def NothingHidden (s : Settings) (configured named : List Context) : Prop :=
  ∀ front c back, named = front ++ c :: back →
    ¬ Context.Clash (mergeAll (configured ++ [s.config.vars])) (mergeAll front) c

/-- A single data file hides nothing from a later one. -/
theorem nothingHidden_of_length_le {s : Settings} {configured named : List Context}
    (single : named.length ≤ 1) : NothingHidden s configured named := by
  rintro front c back rfl
  rw [List.length_append, List.length_cons] at single
  have empty : front.length = 0 := by omega
  obtain rfl := List.eq_nil_of_length_eq_zero empty
  exact Context.not_clash_empty _ c

theorem gatherContext_eq_ok_iff {s : Settings} {r : RenderRequest} {c : Context} :
    (gatherContext (FileTree.files current) s r).run.run tree = (.ok c, tree') ↔
      (∃ configured named assigned, Sources tree current s r configured named assigned ∧
        c = assigned.foldl Context.merge
          ((mergeAll (configured ++ [s.config.vars])).merge (mergeAll named))) ∧ tree = tree' := by
  constructor
  · intro gathered
    obtain ⟨base, _, based, gathered⟩ := run_bind_eq_ok.1 gathered
    obtain ⟨data, _, read, gathered⟩ := run_bind_eq_ok.1 gathered
    obtain ⟨assigned, rfl⟩ := run_mk_eq_ok.1 gathered
    obtain ⟨_, _, read', merged⟩ := run_bind_eq_ok.1 based
    obtain ⟨rfl, rfl⟩ := run_pure_eq_ok.1 merged
    obtain ⟨⟨configured, fromConfig, rfl⟩, rfl⟩ := Data.loadAll_eq_ok_iff.1 read'
    obtain ⟨⟨named, fromNamed, rfl⟩, rfl⟩ := Data.loadAll_eq_ok_iff.1 read
    obtain ⟨contexts, fromAssignments, rfl⟩ := assignAll_eq_ok_iff.1 assigned
    exact ⟨⟨configured, named, contexts, ⟨fromConfig, fromNamed, fromAssignments⟩, by
      rw [Context.mergeAll_concat]⟩, rfl⟩
  · rintro ⟨⟨configured, named, assigned, sources, rfl⟩, rfl⟩
    rw [Context.mergeAll_concat]
    have based : (s.baseContext (FileTree.files current)).run.run tree =
        (.ok ((mergeAll configured).merge s.config.vars), tree) :=
      run_bind_eq_ok.2 ⟨_, _, Data.loadAll_eq_ok_iff.2 ⟨⟨_, sources.configured, rfl⟩, rfl⟩,
        run_pure_eq_ok.2 ⟨rfl, rfl⟩⟩
    exact run_bind_eq_ok.2 ⟨_, _, based,
      run_bind_eq_ok.2 ⟨_, _, Data.loadAll_eq_ok_iff.2 ⟨⟨_, sources.named, rfl⟩, rfl⟩,
        run_mk_eq_ok.2 ⟨assignAll_eq_ok_iff.2 ⟨_, sources.assigned, rfl⟩, rfl⟩⟩⟩

/-- Where no data file hides a map, merging data files first makes no difference. -/
theorem inOrder_eq {s : Settings} {configured named : List Context}
    (apart : NothingHidden s configured named) (assigned : List Context) :
    inOrder s configured named assigned = assigned.foldl Context.merge
      ((mergeAll (configured ++ [s.config.vars])).merge (mergeAll named)) := by
  have shape : configured ++ s.config.vars :: (named ++ assigned) =
      (configured ++ [s.config.vars]) ++ named ++ assigned := by simp
  rw [inOrder, shape, Context.mergeAll_append, Context.mergeAll_append,
    Context.foldl_merge apart]

/-- The variables of a render command are those of its sources, each merged into those before it,
only that the data files named on the command line are merged with each other first. This makes no
difference where none of them hides a map of the configuration from a map in a later one. -/
theorem context_of_gather {s : Settings} {r : RenderRequest} {job : Job}
    (gathered : (gather (FileTree.files current) s r).run.run tree = (.ok job, tree')) :
    ∃ configured named assigned, Sources tree current s r configured named assigned ∧
      job.context = assigned.foldl Context.merge
        ((mergeAll (configured ++ [s.config.vars])).merge (mergeAll named)) ∧
      (NothingHidden s configured named →
        job.context = inOrder s configured named assigned) := by
  obtain ⟨c, _, context, gathered⟩ := run_bind_eq_ok.1 gathered
  obtain ⟨template, _, -, gathered⟩ := run_bind_eq_ok.1 gathered
  obtain rfl : job.context = c := by
    simp only at gathered
    split at gathered
    all_goals
      obtain ⟨layout, _, -, gathered⟩ := run_bind_eq_ok.1 gathered
      rw [← (run_pure_eq_ok.1 gathered).1]
  have same : (settingsFor s r).baseDir = s.baseDir ∧
      (settingsFor s r).config.dataFiles = s.config.dataFiles ∧
      (settingsFor s r).config.vars = s.config.vars := by
    rw [settingsFor]
    split <;> exact ⟨rfl, rfl, rfl⟩
  obtain ⟨⟨configured, named, assigned, ⟨fromConfig, fromNamed, fromAssignments⟩, grouped⟩, -⟩ :=
    gatherContext_eq_ok_iff.1 context
  rw [same.1, same.2.1] at fromConfig
  rw [same.2.2] at grouped
  refine ⟨configured, named, assigned, ⟨fromConfig, fromNamed, fromAssignments⟩, grouped, ?_⟩
  intro apart
  rw [grouped, inOrder_eq apart]

/-- A template that is named by its file is read from there. -/
theorem loadTemplate_of_isFile {s : Settings} {name source : String} {t : Template}
    (isFile : tree.isFile current name = true) (read : tree.read? current name = some source)
    (compiled : Template.compile name source = .ok t) :
    (s.loadTemplate (FileTree.files current) name).run.run tree = (.ok t, tree) := by
  have path : (ExceptT.lift (s.templatePath (FileTree.files current) name) :
      ExceptT Failure (StateM FileTree) String).run.run tree = (.ok name, tree) := by
    have found : ((FileTree.files current).isFile name).run tree = (true, tree) := by
      rw [← isFile]
      rfl
    rw [ExceptT.run_lift, StateT.run_map, Settings.templatePath, StateT.run_bind, found]
    rfl
  have text : (liftM ((FileTree.files current).read name) :
      ExceptT Failure (StateM FileTree) (Option String)).run.run tree =
        (.ok (some source), tree) := by
    rw [← read]
    rfl
  refine run_bind_eq_ok.2 ⟨_, _, path, run_bind_eq_ok.2 ⟨_, _, text, run_mk_eq_ok.2 ⟨?_, rfl⟩⟩⟩
  rw [compiled]
  rfl

/-- A command without layout finds its job where its sources and its template can be read. -/
theorem gather_of_sources {s : Settings} {r : RenderRequest} {t : Template}
    {configured named assigned : List Context} (withBuiltins : r.withoutBuiltins = false)
    (noLayout : r.layout = none) (sources : Sources tree current s r configured named assigned)
    (loaded : (s.loadTemplate (FileTree.files current) r.template).run.run tree = (.ok t, tree)) :
    (gather (FileTree.files current) s r).run.run tree =
      (.ok ⟨s, assigned.foldl Context.merge
        ((mergeAll (configured ++ [s.config.vars])).merge (mergeAll named)), t, none⟩, tree) := by
  have same : settingsFor s r = s := by simp [settingsFor, withBuiltins]
  rw [gather, same]
  simp only [noLayout]
  exact run_bind_eq_ok.2 ⟨_, _, gatherContext_eq_ok_iff.2 ⟨⟨_, _, _, sources, rfl⟩, rfl⟩,
    run_bind_eq_ok.2 ⟨_, _, loaded, rfl⟩⟩

/-- A data file and an assignment over a variable of the configuration. -/
theorem context_of_gather_assigned :
    let tree : FileTree := .directory
      [("b.json", .file (some "\x7b\"site\":\x7b\"lang\":\"en\"\x7d\x7d")),
        ("t.tmpl", .file (some ""))]
    let s : Settings :=
      ⟨".", { Config.standard with
        vars := Context.ofEntries [("site", .map [("name", .string "N"), ("port", .int 80)])] }⟩
    let r : RenderRequest := ⟨"t.tmpl", ["b.json"], ["site.name=M"], none, none, false⟩
    ∃ job configured named assigned,
      (gather (FileTree.files []) s r).run.run tree = (.ok job, tree) ∧
        Sources tree [] s r configured named assigned ∧
        job.context = inOrder s configured named assigned ∧
        job.context.at? ["site", "name"] = some (.string "M") := by
  intro tree s r
  let lang : Context := Context.ofEntries [("site", .map [("lang", .string "en")])]
  let name : Context := Context.ofEntries [("site", .map [("name", .string "M")])]
  have read : tree.read? [] "b.json" = some "\x7b\"site\":\x7b\"lang\":\"en\"\x7d\x7d" := rfl
  have loaded : Data.Loaded tree [] "b.json" lang := by
    rw [Data.Loaded, Data.load_run, read]
    cbv
  have parsed : Assignment.parse "site.name=M" = .ok name := by cbv
  have sources : Sources tree [] s r [] [lang] [name] :=
    ⟨.nil, .cons loaded .nil, .cons parsed .nil⟩
  have template : (s.loadTemplate (FileTree.files []) "t.tmpl").run.run tree =
      (.ok (.ofNodes "t.tmpl" []), tree) := loadTemplate_of_isFile rfl rfl (by cbv)
  have gathered := gather_of_sources rfl rfl sources template
  obtain ⟨configured, named, assigned, sources, -, inOrder⟩ := context_of_gather gathered
  have single : named.length = 1 := sources.named.length_eq.symm
  exact ⟨_, configured, named, assigned, gathered, sources,
    inOrder (nothingHidden_of_length_le (Nat.le_of_eq single)), by cbv⟩

/-- A data file that sets a map of the configuration to a number would hide it from a map in the
next data file if files were merged one by one. As they are not, the name that the configuration
sets comes back. -/
theorem gather_hides :
    let tree : FileTree := .directory
      [("a.json", .file (some "\x7b\"site\":5\x7d")),
        ("b.json", .file (some "\x7b\"site\":\x7b\"lang\":\"en\"\x7d\x7d")),
        ("t.tmpl", .file (some ""))]
    let s : Settings :=
      ⟨".", { Config.standard with
        vars := Context.ofEntries [("site", .map [("name", .string "N")])] }⟩
    let r : RenderRequest := ⟨"t.tmpl", ["a.json", "b.json"], [], none, none, false⟩
    ∃ job, (gather (FileTree.files []) s r).run.run tree = (.ok job, tree) ∧
      ∀ configured named assigned, Sources tree [] s r configured named assigned →
        job.context ≠ inOrder s configured named assigned := by
  intro tree s r
  let site : Context := Context.ofEntries [("site", .int 5)]
  let lang : Context := Context.ofEntries [("site", .map [("lang", .string "en")])]
  have read : tree.read? [] "a.json" = some "\x7b\"site\":5\x7d" := rfl
  have read' : tree.read? [] "b.json" = some "\x7b\"site\":\x7b\"lang\":\"en\"\x7d\x7d" := rfl
  have loaded : Data.Loaded tree [] "a.json" site := by
    rw [Data.Loaded, Data.load_run, read]
    cbv
  have loaded' : Data.Loaded tree [] "b.json" lang := by
    rw [Data.Loaded, Data.load_run, read']
    cbv
  have sources : Sources tree [] s r [] [site, lang] [] :=
    ⟨.nil, .cons loaded (.cons loaded' .nil), .nil⟩
  have template : (s.loadTemplate (FileTree.files []) "t.tmpl").run.run tree =
      (.ok (.ofNodes "t.tmpl" []), tree) := loadTemplate_of_isFile rfl rfl (by cbv)
  refine ⟨_, gather_of_sources rfl rfl sources template, ?_⟩
  rintro configured named assigned ⟨fromConfig, fromNamed, fromAssignments⟩ same
  cases fromConfig
  cases fromAssignments
  rcases fromNamed with _ | ⟨first, _ | ⟨second, ⟨⟩⟩⟩
  obtain rfl := first.unique loaded
  obtain rfl := second.unique loaded'
  have comesBack : (((mergeAll [s.config.vars]).merge (mergeAll [site, lang])).at?
      ["site", "name"]).isSome = true := by cbv
  have hidden : ((inOrder s [] [site, lang] []).at? ["site", "name"]).isSome = false := by cbv
  rw [← same] at hidden
  exact Bool.noConfusion (comesBack.symm.trans hidden)

end Job

end BraceTemplate

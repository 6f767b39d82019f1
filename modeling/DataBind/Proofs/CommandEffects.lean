import DataBind.Proofs.ViewJson
import DataBind.Proofs.WrittenViews

/-!
# What commands leave on the disk

A command that fails leaves all files as they were and prints nothing. One that succeeds changes at most the file
of the view that it parses, and that one just when ids are to be written and some were generated. The file then
holds a text that stands for the view after the run.
-/

namespace DataBind.CommandLine

/-- The text of a view in a file with this name, which stands for the view. -/
inductive ViewText (path : String) (view : View) : String → Prop
  | json (named : isJsonPath path = true)
      (stands : (Json.read? view.toJson.pretty).bind View.ofJson? = some view) :
      ViewText path view view.toJson.pretty
  | yaml (named : isJsonPath path = false) (stands : View.ofYaml view.toYaml = .ok view) :
      ViewText path view view.toYaml

theorem viewText_writtenView (path : String) (view : View) : ViewText path view (writtenView path view).content := by
  unfold writtenView
  cases named : isJsonPath path with
  | true => exact .json named view.ofJson?_pretty
  | false => exact .yaml named view.ofYaml_toYaml

/-- The command is a parse that is to write ids and that generates some for the view in the file. This is the path
of the file and the view after the run. -/
inductive RewritesView {File : Type} (disk : Disk File) : Command → File → String → View → Prop
  | parse {request : ParseRequest} {options : Options} {view : View} {bound : BindOutcome UInt64} {report : Report}
      {file : File} (asked : request.writeIds = true) (located : disk.locate request.view = .ok file)
      (brings : request.Brings disk.files options view bound report) (generated : report.generatedIds ≠ []) :
      RewritesView disk (.parse request) file request.view bound.view

variable {File : Type} [DecidableEq File] {disk : Disk File} {world after : World File} {file : File} {path : String}
  {view : View} {arguments : List String} {command : Command}

/-! ### Ends of a command -/

/-- Where something has failed, neither the output nor a file was touched before. -/
theorem Performs.traceless {failure : Failure} (performs : Performs world command (.error failure) after) :
    after.output = world.output ∧ after.disk = world.disk ∧ after.written = world.written := by
  cases performs with
  | failed => exact ⟨rfl, rfl, rfl⟩
  | unwritten => exact ⟨rfl, rfl, rfl⟩

/-- A command that succeeds leaves the disk, or changes the file of its view. -/
theorem Performs.changes (performs : Performs world command (.ok ()) after) :
    after.disk.locate = world.disk.locate ∧
      ∀ file, after.disk.bytes file ≠ world.disk.bytes file →
        ∃ path view, RewritesView world.disk command file path view := by
  cases performs with
  | compiled lowers => exact ⟨rfl, fun _ changed => absurd rfl changed⟩
  | canonical compiles => exact ⟨rfl, fun _ changed => absurd rfl changed⟩
  | normalized compiles => exact ⟨rfl, fun _ changed => absurd rfl changed⟩
  | parsed brings kept => exact ⟨rfl, fun _ changed => absurd rfl changed⟩
  | rewritten brings rewrites took =>
    obtain ⟨⟨asked, generated⟩, rfl⟩ := ParseRequest.rewrites_iff.mp rewrites
    obtain ⟨stored, located, -, rfl⟩ := Disk.write_eq_ok.mp took
    refine ⟨rfl, fun file changed => ?_⟩
    obtain rfl : file = stored := by
      by_contra apart
      exact changed (if_neg apart)
    exact ⟨_, _, .parse asked located brings generated⟩

theorem RewritesView.runOn_stored (rewrites : RewritesView disk command file path view)
    (given : Command.read arguments = .ok command) (opens : disk.refusal? file = none) :
    (runOn disk arguments).1 = 0 ∧
      (runOn disk arguments).2.disk = disk.store file (writtenView path view).content := by
  cases rewrites with
  | @parse request options _ bound report _ asked located brings generated =>
    have wanted : request.written? bound report = some (writtenView request.view bound.view) :=
      ParseRequest.rewrites_iff.mpr ⟨⟨asked, generated⟩, rfl⟩
    have took : disk.write (writtenView request.view bound.view) = .ok _ :=
      Disk.write_eq_ok.mpr ⟨file, located, opens, rfl⟩
    have onDisk : request.Brings (World.disk { disk }).files options _ bound report := brings
    rw [runOn_of_ok given (onDisk.run_rewritten wanted took)]
    exact ⟨rfl, rfl⟩

theorem RewritesView.runOn_refused (rewrites : RewritesView disk command file path view)
    (given : Command.read arguments = .ok command) {fault : FileFault} (refuses : disk.refusal? file = some fault) :
    (runOn disk arguments).1 = 1 := by
  cases rewrites with
  | @parse request options _ bound report _ asked located brings generated =>
    have wanted : request.written? bound report = some (writtenView request.view bound.view) :=
      ParseRequest.rewrites_iff.mpr ⟨⟨asked, generated⟩, rfl⟩
    have refused : disk.write (writtenView request.view bound.view) = .error fault :=
      Disk.write_eq_error located refuses
    have onDisk : request.Brings (World.disk { disk }).files options _ bound report := brings
    rw [runOn_of_error given (onDisk.run_unwritten wanted refused)]

/-! ### Effects -/

/-- A command that fails prints nothing on the output and changes no file, even where what fails is the last write.
One that succeeds changes no file but that of the view it parses, and that one only if ids are to be written and some
were generated. Then the file holds a text that stands for the view after the run. -/
theorem run_effects (given : Command.read arguments = .ok command) (disk : Disk File) :
    let code := (runOn disk arguments).1
    let after := (runOn disk arguments).2
    (code = 0 ∨ code = 1) ∧
      (code = 1 → after.output = "" ∧ after.disk = disk ∧ after.written = []) ∧
      (code = 0 → after.disk.locate = disk.locate ∧
        (∀ file, after.disk.bytes file ≠ disk.bytes file → ∃ path view, RewritesView disk command file path view) ∧
        ∀ file path view, RewritesView disk command file path view →
          ∃ content, ViewText path view content ∧ after.disk.bytes file = content.toUTF8) ∧
      ∀ file path view, RewritesView disk command file path view → disk.refusal? file = none → code = 0 := by
  intro code after
  have opened (file : File) (path : String) (view : View) (rewrites : RewritesView disk command file path view)
      (opens : disk.refusal? file = none) : code = 0 := (rewrites.runOn_stored given opens).1
  rcases performs_runOn given disk with ⟨failure, last, performs, ran⟩ | ⟨last, performs, ran⟩
  · have code : code = 1 := congrArg Prod.fst ran
    have after : after = last.warn failure.message := congrArg Prod.snd ran
    refine ⟨.inr code, fun _ => after ▸ performs.traceless, fun zero => ?_, opened⟩
    cases code.symm.trans zero
  · have code : code = 0 := congrArg Prod.fst ran
    have after : after = last := congrArg Prod.snd ran
    obtain ⟨located, changes⟩ := performs.changes
    refine ⟨.inl code, fun one => ?_, fun _ => after ▸ ⟨located, changes, ?_⟩, opened⟩
    · cases code.symm.trans one
    · intro file path view rewrites
      cases opens : disk.refusal? file with
      | none =>
        have stored := (rewrites.runOn_stored given opens).2
        rw [ran] at stored
        exact ⟨_, viewText_writtenView path view, by rw [stored]; exact if_pos rfl⟩
      | some fault => cases code.symm.trans (rewrites.runOn_refused given opens)

/-- The first element takes an id before the second one is refused. -/
def halfBound (id : Option String) : View where
  model := some "m"
  elements := [
    { id, attributes := KeyMap.ofList [("data-bind", "value:a")] },
    { id := some "b", attributes := KeyMap.ofList [("data-bind", "value:a|b")] }]

def halfBoundReport : Report where
  model := "m"
  bindings := KeyMap.ofList [("#stickit_1", { observe := some (.one "a") })]
  generatedIds := ["stickit_1"]
  skipped := [⟨1, "value:a|b", "BIND-020: Bad filter format: 'b'"⟩]

/-- Two files, one of them under three paths. -/
def halfBoundDisk (refusal : Option FileFault) : Disk Bool where
  locate path :=
    if path ∈ ["view.yaml", "link.yaml", "link.json"] then .ok true
    else if path = "other.yaml" then .ok false
    else .error .notFound
  bytes
    | true => (halfBound none).toYaml.toUTF8
    | false => "other".toUTF8
  refusal? _ := refusal

def halfBoundRequest (view : String) (skipInvalid : Bool) : ParseRequest :=
  { view, overrides := { skipInvalid }, writeIds := true }

def halfBoundOutcome (skipInvalid : Bool) : BindOutcome UInt64 :=
  bindView ((halfBoundRequest "" skipInvalid).overrides.apply {}) (.numbered IdSource.defaultStem) (halfBound none)
    IdSource.firstNumber []

section

variable {refusal : Option FileFault} {path : String}

theorem readView_halfBoundDisk (located : (halfBoundDisk refusal).locate path = .ok true) :
    readView (halfBoundDisk refusal).files path = .ok (halfBound none) := by
  have read : (halfBoundDisk refusal).files path = .ok (halfBound none).toYaml := Disk.files_eq_ok located rfl
  apply readView_eq_ok
  rw [read, View.ofFile]
  exact (halfBound none).ofYaml_toYaml

theorem rewritesView_halfBound (located : (halfBoundDisk refusal).locate path = .ok true) :
    RewritesView (halfBoundDisk refusal) (.parse (halfBoundRequest path true)) true path
      (halfBound (some "stickit_1")) := by
  have after : (halfBoundOutcome true).view = halfBound (some "stickit_1") := by decide +kernel
  have brings : (halfBoundRequest path true).Brings (halfBoundDisk refusal).files {} (halfBound none)
      (halfBoundOutcome true) halfBoundReport :=
    ⟨rfl, readView_halfBoundDisk located, rfl, by decide +kernel⟩
  exact after ▸ .parse rfl located brings (by decide)

end

theorem not_brings_halfBound {bound : BindOutcome UInt64} {options : Options} {view : View} {report : Report} :
    ¬(halfBoundRequest "link.yaml" false).Brings (halfBoundDisk none).files options view bound report := by
  rintro ⟨given, found, rfl, reported⟩
  obtain rfl : ({} : Options) = options := Except.ok.inj given
  obtain rfl : halfBound none = view := Except.ok.inj ((readView_halfBoundDisk rfl).symm.trans found)
  have refused : (halfBoundOutcome false).result = .error (.declaration (.badFilter "b")) := by decide +kernel
  cases refused.symm.trans reported

def halfBoundArguments (path : String) (skipInvalid : Bool) : List String :=
  ["parse", path, "--write-ids"] ++ if skipInvalid then ["--skip-invalid"] else []

/-- A run that is aborted, one through each name of the file, and one where the file does not open. -/
theorem run_effects_halfBound :
    ((halfBoundOutcome false).view = halfBound (some "stickit_1") ∧
      (runOn (halfBoundDisk none) (halfBoundArguments "link.yaml" false)).1 = 1 ∧
      (runOn (halfBoundDisk none) (halfBoundArguments "link.yaml" false)).2.output = "" ∧
      (runOn (halfBoundDisk none) (halfBoundArguments "link.yaml" false)).2.disk = halfBoundDisk none) ∧
    ((runOn (halfBoundDisk none) (halfBoundArguments "link.yaml" true)).1 = 0 ∧
      (runOn (halfBoundDisk none) (halfBoundArguments "link.yaml" true)).2.disk.bytes true =
        (halfBound (some "stickit_1")).toYaml.toUTF8 ∧
      (runOn (halfBoundDisk none) (halfBoundArguments "link.yaml" true)).2.disk.bytes false = "other".toUTF8) ∧
    ((runOn (halfBoundDisk none) (halfBoundArguments "link.json" true)).1 = 0 ∧
      (runOn (halfBoundDisk none) (halfBoundArguments "link.json" true)).2.disk.bytes true =
        (halfBound (some "stickit_1")).toJson.pretty.toUTF8 ∧
      (Json.read? (halfBound (some "stickit_1")).toJson.pretty).bind View.ofJson? =
        some (halfBound (some "stickit_1")) ∧
      (runOn (halfBoundDisk none) (halfBoundArguments "link.json" true)).2.disk.bytes false = "other".toUTF8) ∧
    (runOn (halfBoundDisk (some .permissionDenied)) (halfBoundArguments "link.json" true)).1 = 1 ∧
      (runOn (halfBoundDisk (some .permissionDenied)) (halfBoundArguments "link.json" true)).2.output = "" ∧
      (runOn (halfBoundDisk (some .permissionDenied)) (halfBoundArguments "link.json" true)).2.disk =
        halfBoundDisk (some .permissionDenied) := by
  have strict : Command.read (halfBoundArguments "link.yaml" false) =
      .ok (.parse (halfBoundRequest "link.yaml" false)) := rfl
  obtain ⟨ends, fails, -⟩ := run_effects strict (halfBoundDisk none)
  have aborted : (runOn (halfBoundDisk none) (halfBoundArguments "link.yaml" false)).1 = 1 := by
    refine ends.resolve_left fun zero => ?_
    obtain ⟨options, view, bound, report, brings⟩ := exists_brings_of_code strict zero
    exact not_brings_halfBound brings
  obtain ⟨output, disk, -⟩ := fails aborted
  have skipping (path : String)
      (given : Command.read (halfBoundArguments path true) = .ok (.parse (halfBoundRequest path true)))
      (located : (halfBoundDisk none).locate path = .ok true) :
      (runOn (halfBoundDisk none) (halfBoundArguments path true)).1 = 0 ∧
        (∃ content, ViewText path (halfBound (some "stickit_1")) content ∧
          (runOn (halfBoundDisk none) (halfBoundArguments path true)).2.disk.bytes true = content.toUTF8) ∧
        (runOn (halfBoundDisk none) (halfBoundArguments path true)).2.disk.bytes false = "other".toUTF8 := by
    obtain ⟨-, -, succeeds, opened⟩ := run_effects given (halfBoundDisk none)
    have code := opened true path _ (rewritesView_halfBound located) rfl
    obtain ⟨-, changes, written⟩ := succeeds code
    refine ⟨code, written true path _ (rewritesView_halfBound located), ?_⟩
    by_contra changed
    obtain ⟨_, _, rewrites⟩ := changes false changed
    cases rewrites with
    | parse asked elsewhere => cases located.symm.trans elsewhere
  obtain ⟨block, ⟨_, blockText, blockBytes⟩, blockOther⟩ := skipping "link.yaml" rfl rfl
  obtain ⟨json, ⟨_, jsonText, jsonBytes⟩, jsonOther⟩ := skipping "link.json" rfl rfl
  have lenient : Command.read (halfBoundArguments "link.json" true) =
      .ok (.parse (halfBoundRequest "link.json" true)) := rfl
  have refused : (runOn (halfBoundDisk (some .permissionDenied)) (halfBoundArguments "link.json" true)).1 = 1 :=
    (rewritesView_halfBound rfl).runOn_refused lenient rfl
  obtain ⟨-, failsRefused, -⟩ := run_effects lenient (halfBoundDisk (some .permissionDenied))
  obtain ⟨refusedOutput, refusedDisk, -⟩ := failsRefused refused
  cases blockText with
  | json named => exact absurd named (by decide)
  | yaml =>
    cases jsonText with
    | yaml named => exact absurd named (by decide)
    | json named stands =>
      exact ⟨⟨by decide +kernel, aborted, output, disk⟩, ⟨block, blockBytes, blockOther⟩,
        ⟨json, jsonBytes, stands, jsonOther⟩, refused, refusedOutput, refusedDisk⟩

end DataBind.CommandLine

import DataBind.CommandLine.World

/-!
# Runs of commands

A command that fails leaves its world as it was, unless what fails is the write of its view. One that succeeds
prints at its end. In between, a parse warns of the elements that it skips and may rewrite the file of its view.
-/

namespace DataBind.CommandLine

/-! ### Disks -/

namespace Disk

variable {File : Type}

theorem text_toUTF8 (content : String) : text content.toUTF8 = .ok content := by
  have read : String.fromUTF8? content.toUTF8 = some content := dif_pos content.isValidUTF8
  rw [text, read]

theorem files_eq_ok {disk : Disk File} {path : String} {file : File} {content : String}
    (located : disk.locate path = .ok file) (holds : disk.bytes file = content.toUTF8) :
    disk.files path = .ok content := by
  unfold files
  rw [located]
  show text (disk.bytes file) = _
  rw [holds, text_toUTF8]

theorem locate_ofFiles {files : Files} {path content : String} (holds : files path = .ok content) :
    (ofFiles files).locate path = .ok path := by
  show (files path).map _ = _
  rw [holds]
  rfl

theorem files_ofFiles (files : Files) : (ofFiles files).files = files := by
  funext path
  cases holds : files path with
  | error fault =>
    show ((files path).map _).bind _ = _
    rw [holds]
    rfl
  | ok content =>
    apply files_eq_ok (locate_ofFiles holds)
    show ((files path).toOption.getD "").toUTF8 = _
    rw [holds]
    rfl

variable [DecidableEq File]

theorem write_eq_ok {disk after : Disk File} {written : FileWrite} :
    disk.write written = .ok after ↔ ∃ file, disk.locate written.path = .ok file ∧ disk.refusal? file = none ∧
      disk.store file written.content = after := by
  unfold write
  cases located : disk.locate written.path with
  | error fault => simp [bind, Except.bind]
  | ok file =>
    cases refusal : disk.refusal? file with
    | some fault => simp [bind, Except.bind, refusal]
    | none => simp [bind, Except.bind, refusal, pure, Except.pure]

theorem write_eq_error {disk : Disk File} {written : FileWrite} {file : File} {fault : FileFault}
    (located : disk.locate written.path = .ok file) (refuses : disk.refusal? file = some fault) :
    disk.write written = .error fault := by
  simp only [write, located, bind, Except.bind, refuses]
  rfl

end Disk

/-! ### Steps -/

section

variable {File α β : Type}

def World.run (world : World File) (step : WorldM File α) : Except Failure α × World File :=
  (ExceptT.run step).run world

variable {step : WorldM File α} {next : α → WorldM File β} {world after : World File}

theorem World.run_bind_ok {value : α} (ran : world.run step = (.ok value, after)) :
    world.run (step >>= next) = after.run (next value) := by
  unfold World.run at ran ⊢
  rw [ExceptT.run_bind, StateT.run_bind, ran]
  rfl

theorem World.run_bind_error {failure : Failure} (ran : world.run step = (.error failure, after)) :
    world.run (step >>= next) = (.error failure, after) := by
  unfold World.run at ran ⊢
  rw [ExceptT.run_bind, StateT.run_bind, ran]
  rfl

theorem World.run_orFail (activity : Option String) (result : Except BindError α) (world : World File) :
    world.run (orFail activity result) = (result.mapError fun error => ⟨activity, .bind error⟩, world) := rfl

end

def readOptions (files : Files) (request : ParseRequest) : Except Failure Options :=
  match request.options with
  | some path => (Options.ofFile path (files path)).mapError fun error => ⟨none, .bind error⟩
  | none => .ok {}

def readView (files : Files) (path : String) : Except Failure View :=
  (View.ofFile (files path)).mapError fun error =>
    ⟨some ("Failed to load view document " ++ path), .bind error⟩

def skippedLines (skipped : List Skipped) : String :=
  String.join (skipped.map skippedLine)

namespace World

variable {File : Type} [DecidableEq File]

theorem run_loadOptions (request : ParseRequest) (world : World File) :
    world.run (loadOptions request) = (readOptions world.disk.files request, world) := by
  unfold loadOptions readOptions
  cases request.options with
  | none => rfl
  | some path => rfl

theorem run_loadView (path : String) (world : World File) :
    world.run (loadView path) = (readView world.disk.files path, world) := rfl

theorem run_printLine (text : String) (world : World File) :
    world.run (printLine text) = (.ok (), world.print (text ++ "\n")) := rfl

theorem run_warn (text : String) (world : World File) :
    world.run (Host.warn text) = (.ok (), world.warn text) := rfl

theorem run_warnings (skipped : List Skipped) (world : World File) :
    world.run (skipped.forM fun entry => Host.warn (skippedLine entry)) =
      (.ok (), world.warn (skippedLines skipped)) := by
  induction skipped generalizing world with
  | nil =>
    have same : world.warn (skippedLines []) = world := by simp [warn, skippedLines]
    rw [same]
    rfl
  | cons entry skipped ih =>
    show world.run (Host.warn (skippedLine entry) >>= fun _ =>
      skipped.forM fun entry => Host.warn (skippedLine entry)) = _
    rw [run_bind_ok (run_warn (skippedLine entry) world), ih]
    simp [warn, skippedLines, String.append_assoc]

theorem run_saveView {path : String} {view : View} {world : World File} {disk : Disk File}
    (took : world.disk.write (writtenView path view) = .ok disk) :
    world.run (saveView path view) = (.ok (), world.wrote (writtenView path view) disk) := by
  have ran : world.run (Host.writeFile (writtenView path view)) =
      (.ok (.ok ()), world.wrote (writtenView path view) disk) := by
    show (Except.ok (world.write _).1, (world.write _).2) = _
    rw [write, took]
  exact run_bind_ok ran

theorem run_saveView_refused {path : String} {view : View} {world : World File} {fault : FileFault}
    (refused : world.disk.write (writtenView path view) = .error fault) :
    world.run (saveView path view) =
      (.error ⟨some ("Failed to write view document " ++ path), .unwritten fault⟩, world) := by
  have ran : world.run (Host.writeFile (writtenView path view)) = (.ok (.error fault), world) := by
    show (Except.ok (world.write _).1, (world.write _).2) = _
    rw [write, refused]
  exact run_bind_ok ran

end World

/-! ### Parses -/

/-- The files are read, and binding the view has this outcome and gives this report. -/
structure ParseRequest.Brings (request : ParseRequest) (files : Files) (options : Options) (view : View)
    (bound : BindOutcome UInt64) (report : Report) : Prop where
  given : readOptions files request = .ok options
  loaded : readView files request.view = .ok view
  binds : bindView (request.overrides.apply options) (.numbered IdSource.defaultStem) view IdSource.firstNumber [] =
    bound
  reported : bound.result = .ok report

def ParseRequest.shown (request : ParseRequest) (log : List Registration) (report : Report) : String :=
  (if request.registrations then logToJson log else report.toJson).pretty ++ "\n"

def ParseRequest.written? (request : ParseRequest) (bound : BindOutcome UInt64) (report : Report) : Option FileWrite :=
  if request.writeIds && report.generatedIds != [] then some (writtenView request.view bound.view) else none

section

variable {File : Type} [DecidableEq File] {world : World File} {request : ParseRequest} {options : Options}
  {view : View} {bound : BindOutcome UInt64} {report : Report}

theorem ParseRequest.Brings.run_bindRequested (brings : request.Brings world.disk.files options view bound report) :
    world.run (bindRequested request) = (.ok (bound, report), world) := by
  obtain ⟨given, loaded, rfl, reported⟩ := brings
  have options := World.run_loadOptions request world
  rw [given] at options
  have view := World.run_loadView request.view world
  rw [loaded] at view
  rw [bindRequested, World.run_bind_ok options, World.run_bind_ok view]
  apply World.run_bind_ok
  rw [World.run_orFail, reported]
  rfl

/-- All that comes before the view is bound leaves the world as it is. -/
theorem exists_brings_or_fails (request : ParseRequest) (world : World File) :
    (∃ options view bound report, request.Brings world.disk.files options view bound report) ∨
      ∃ failure, world.run (bindRequested request) = (.error failure, world) := by
  have options := World.run_loadOptions request world
  cases given : readOptions world.disk.files request with
  | error failure =>
    rw [given] at options
    exact .inr ⟨failure, World.run_bind_error options⟩
  | ok found =>
    rw [given] at options
    rw [bindRequested, World.run_bind_ok options]
    have view := World.run_loadView request.view world
    cases loaded : readView world.disk.files request.view with
    | error failure =>
      rw [loaded] at view
      exact .inr ⟨failure, World.run_bind_error view⟩
    | ok document =>
      rw [loaded] at view
      rw [World.run_bind_ok view]
      cases reported : (bindView (request.overrides.apply found) (.numbered IdSource.defaultStem) document
        IdSource.firstNumber []).result with
      | ok report => exact .inl ⟨found, document, _, report, given, loaded, rfl, reported⟩
      | error cause =>
        refine .inr ⟨⟨none, .bind cause⟩, World.run_bind_error ?_⟩
        rw [World.run_orFail, reported]
        rfl

/-! ### Ends of a parse -/

theorem ParseRequest.written?_eq_none : request.written? bound report = none ↔
    (request.writeIds && report.generatedIds != []) = false := by
  simp [ParseRequest.written?]

theorem ParseRequest.written?_eq_some {written : FileWrite} : request.written? bound report = some written ↔
    (request.writeIds && report.generatedIds != []) = true ∧ writtenView request.view bound.view = written := by
  rw [ParseRequest.written?, Option.ite_none_right_eq_some, Option.some.injEq]

theorem ParseRequest.rewrites_iff {written : FileWrite} : request.written? bound report = some written ↔
    (request.writeIds = true ∧ report.generatedIds ≠ []) ∧ writtenView request.view bound.view = written := by
  rw [ParseRequest.written?_eq_some, Bool.and_eq_true_iff, bne_iff_ne]

/-- Once a view is bound, only its write can fail. -/
theorem ParseRequest.Brings.run_parseView (brings : request.Brings world.disk.files options view bound report) :
    world.run (parseView request) = (world.warn (skippedLines report.skipped)).run (do
      if request.writeIds && report.generatedIds != [] then
        saveView request.view bound.view
      printLine (if request.registrations then logToJson bound.log else report.toJson).pretty) := by
  have warned := World.run_warnings report.skipped world
  rw [parseView, World.run_bind_ok brings.run_bindRequested, World.run_bind_ok warned]

theorem ParseRequest.Brings.run_kept (brings : request.Brings world.disk.files options view bound report)
    (kept : request.written? bound report = none) :
    world.run (parseView request) =
      (.ok (), (world.warn (skippedLines report.skipped)).print (request.shown bound.log report)) := by
  rw [brings.run_parseView, ParseRequest.written?_eq_none.mp kept]
  exact World.run_printLine _ _

theorem ParseRequest.Brings.run_rewritten (brings : request.Brings world.disk.files options view bound report)
    {written : FileWrite} (rewrites : request.written? bound report = some written) {disk : Disk File}
    (took : world.disk.write written = .ok disk) :
    world.run (parseView request) =
      (.ok (),
        ((world.warn (skippedLines report.skipped)).wrote written disk).print (request.shown bound.log report)) := by
  obtain ⟨wanted, rfl⟩ := ParseRequest.written?_eq_some.mp rewrites
  have saves : (world.warn (skippedLines report.skipped)).run (saveView request.view bound.view) = _ :=
    World.run_saveView took
  rw [brings.run_parseView, if_pos wanted, World.run_bind_ok saves]
  exact World.run_printLine _ _

theorem ParseRequest.Brings.run_unwritten (brings : request.Brings world.disk.files options view bound report)
    {written : FileWrite} (rewrites : request.written? bound report = some written) {fault : FileFault}
    (refused : world.disk.write written = .error fault) :
    world.run (parseView request) =
      (.error ⟨some ("Failed to write view document " ++ request.view), .unwritten fault⟩,
        world.warn (skippedLines report.skipped)) := by
  obtain ⟨wanted, rfl⟩ := ParseRequest.written?_eq_some.mp rewrites
  have fails : (world.warn (skippedLines report.skipped)).run (saveView request.view bound.view) = _ :=
    World.run_saveView_refused refused
  rw [brings.run_parseView, if_pos wanted, World.run_bind_error fails]

/-! ### Ends of a command -/

/-- How a command ends and what it makes of the world. -/
inductive Performs (world : World File) : Command → Except Failure Unit → World File → Prop
  | failed {command : Command} (failure : Failure) : Performs world command (.error failure) world
  | compiled {declaration : String} {id : Option String} {options : CompileOptions} {lowered : LoweredBinding × UInt64}
      (lowers : lowerDeclaration options declaration id (.numbered IdSource.defaultStem) IdSource.firstNumber =
        .ok lowered) :
      Performs world (.compile declaration id options) (.ok ())
        (world.print ((bindingsToJson lowered.1.toBindings).pretty ++ "\n"))
  | canonical {declaration : String} {options : CompileOptions} {spec : Spec}
      (compiles : compile options declaration = .ok spec) :
      Performs world (.canonical declaration options) (.ok ()) (world.print (spec.toJson.pretty ++ "\n"))
  | normalized {declaration : String} {spec : Spec} (compiles : compile {} declaration = .ok spec) :
      Performs world (.normalize declaration) (.ok ()) (world.print (spec.text ++ "\n"))
  | parsed {request : ParseRequest} {options : Options} {view : View} {bound : BindOutcome UInt64} {report : Report}
      (brings : request.Brings world.disk.files options view bound report)
      (kept : request.written? bound report = none) :
      Performs world (.parse request) (.ok ())
        ((world.warn (skippedLines report.skipped)).print (request.shown bound.log report))
  | rewritten {request : ParseRequest} {options : Options} {view : View} {bound : BindOutcome UInt64} {report : Report}
      {written : FileWrite} {disk : Disk File} (brings : request.Brings world.disk.files options view bound report)
      (rewrites : request.written? bound report = some written) (took : world.disk.write written = .ok disk) :
      Performs world (.parse request) (.ok ())
        (((world.warn (skippedLines report.skipped)).wrote written disk).print (request.shown bound.log report))
  | unwritten {request : ParseRequest} {options : Options} {view : View} {bound : BindOutcome UInt64} {report : Report}
      {written : FileWrite} {fault : FileFault} (brings : request.Brings world.disk.files options view bound report)
      (rewrites : request.written? bound report = some written) (refused : world.disk.write written = .error fault) :
      Performs world (.parse request)
        (.error ⟨some ("Failed to write view document " ++ request.view), .unwritten fault⟩)
        (world.warn (skippedLines report.skipped))

/-- What is printed of a declaration is computed before. -/
theorem run_ofDeclaration {α : Type} (result : Except DeclarationError α) (shown : α → String) (world : World File) :
    (∃ failure, world.run (ofDeclaration result >>= fun value => printLine (shown value)) = (.error failure, world)) ∨
      ∃ value, result = .ok value ∧
        world.run (ofDeclaration result >>= fun value => printLine (shown value)) =
          (.ok (), world.print (shown value ++ "\n")) := by
  cases result with
  | error cause => exact .inl ⟨⟨none, .bind (.declaration cause)⟩, rfl⟩
  | ok value => exact .inr ⟨value, rfl, World.run_printLine (shown value) world⟩

theorem performs_parseView (request : ParseRequest) (world : World File) :
    Performs world (.parse request) (world.run (parseView request)).1 (world.run (parseView request)).2 := by
  rcases exists_brings_or_fails request world with ⟨options, view, bound, report, brings⟩ | ⟨failure, fails⟩
  · cases rewrites : request.written? bound report with
    | none =>
      rw [brings.run_kept rewrites]
      exact .parsed brings rewrites
    | some written =>
      cases took : world.disk.write written with
      | ok disk =>
        rw [brings.run_rewritten rewrites took]
        exact .rewritten brings rewrites took
      | error fault =>
        rw [brings.run_unwritten rewrites took]
        exact .unwritten brings rewrites took
  · have ran : world.run (parseView request) = (.error failure, world) := World.run_bind_error fails
    rw [ran]
    exact .failed failure

theorem performs_perform (command : Command) (world : World File) :
    Performs world command (world.run (perform command)).1 (world.run (perform command)).2 := by
  cases command with
  | compile declaration id options =>
    rcases run_ofDeclaration (lowerDeclaration options declaration id (.numbered IdSource.defaultStem)
      IdSource.firstNumber) (fun lowered => (bindingsToJson lowered.1.toBindings).pretty) world with
      ⟨failure, ran⟩ | ⟨lowered, lowers, ran⟩
    · exact ran ▸ .failed failure
    · exact ran ▸ .compiled lowers
  | canonical declaration options =>
    rcases run_ofDeclaration (compile options declaration) (fun spec => spec.toJson.pretty) world with
      ⟨failure, ran⟩ | ⟨spec, compiles, ran⟩
    · exact ran ▸ .failed failure
    · exact ran ▸ .canonical compiles
  | normalize declaration =>
    rcases run_ofDeclaration (compile {} declaration) Spec.text world with
      ⟨failure, ran⟩ | ⟨spec, compiles, ran⟩
    · exact ran ▸ .failed failure
    · exact ran ▸ .normalized compiles
  | parse request => exact performs_parseView request world

/-! ### Runs -/

variable {arguments : List String} {command : Command} {disk : Disk File} {after : World File}

theorem runOn_of_ok (given : Command.read arguments = .ok command)
    (ran : World.run { disk } (perform command) = (.ok (), after)) : runOn disk arguments = (0, after) := by
  unfold World.run at ran
  unfold runOn execute
  rw [given]
  dsimp only
  rw [StateT.run_bind, ran]
  rfl

theorem runOn_of_error (given : Command.read arguments = .ok command) {failure : Failure}
    (ran : World.run { disk } (perform command) = (.error failure, after)) :
    runOn disk arguments = (1, after.warn failure.message) := by
  unfold World.run at ran
  unfold runOn execute
  rw [given]
  dsimp only
  rw [StateT.run_bind, ran]
  rfl

/-- The exit code says whether the command has failed. -/
theorem performs_runOn (given : Command.read arguments = .ok command) (disk : Disk File) :
    (∃ failure after, Performs { disk } command (.error failure) after ∧
        runOn disk arguments = (1, after.warn failure.message)) ∨
      ∃ after, Performs { disk } command (.ok ()) after ∧ runOn disk arguments = (0, after) := by
  have performs := performs_perform command { disk }
  rcases ran : World.run { disk } (perform command) with ⟨failure | _, after⟩
  · rw [ran] at performs
    exact .inl ⟨failure, after, performs, runOn_of_error given ran⟩
  · rw [ran] at performs
    exact .inr ⟨after, performs, runOn_of_ok given ran⟩

/-- A parse exits with no error only if the files are read and the view is bound. -/
theorem exists_brings_of_code {request : ParseRequest} (given : Command.read arguments = .ok (.parse request))
    (code : (runOn disk arguments).1 = 0) :
    ∃ options view bound report, request.Brings disk.files options view bound report := by
  rcases performs_runOn given disk with ⟨failure, after, performs, ran⟩ | ⟨after, performs, ran⟩
  · rw [ran] at code
    cases code
  · cases performs with
    | parsed brings => exact ⟨_, _, _, _, brings⟩
    | rewritten brings => exact ⟨_, _, _, _, brings⟩

end

end DataBind.CommandLine

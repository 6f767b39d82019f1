import DataBind.Proofs.CommandRuns
import DataBind.Proofs.Rebinding
import DataBind.Proofs.Yaml.FlowLexing

/-!
# Views written back

A parse may write its view back, with the ids that it generated. What it writes is always read with the YAML
reader. A view in block style is read back as it was; a view in JSON is if JSON keeps all its texts, and then
the next parse finds the same, less the generated ids.
-/

namespace DataBind

open Yaml (Tree keptInJson keptAsKey)

/-! ### Views in JSON -/

def Element.keptInJson (element : Element) : Bool :=
  element.tag.all Yaml.keptInJson && element.id.all Yaml.keptInJson &&
    element.attributes.entries.all fun entry => keptAsKey entry.1 && Yaml.keptInJson entry.2

/-- YAML reads all texts of the view as JSON writes them. -/
def View.keptInJson (view : View) : Bool :=
  view.model.all Yaml.keptInJson && view.elements.all Element.keptInJson

theorem Element.toJson_toTree (element : Element) : element.toTree.toJson = element.toJson := by
  obtain ⟨tag, id, attributes⟩ := element
  cases tag <;> cases id <;>
    simp [Element.toTree, Element.toJson, Tree.field?, Json.member?, Tree.toJson, Tree.pairsJson_eq_map, KeyMap.toJson]

theorem View.toJson_fields (view : View) : (Tree.mapping view.fields).toJson = view.toJson := by
  obtain ⟨model, elements⟩ := view
  have items : Tree.itemsJson (elements.map Element.toTree) = elements.map Element.toJson := by
    rw [Tree.itemsJson_eq_map, List.map_map]
    exact List.map_congr_left fun element _ => element.toJson_toTree
  cases model <;> simp [View.fields, View.toJson, Tree.field?, Json.member?, Tree.toJson, Tree.pairsJson, items]

theorem Element.kept_toTree (element : Element) : element.toTree.kept = element.keptInJson := by
  obtain ⟨tag, id, attributes⟩ := element
  have names : keptAsKey "tag" = true ∧ keptAsKey "id" = true ∧ keptAsKey "attributes" = true := by decide +kernel
  cases tag <;> cases id <;>
    simp [Element.toTree, Element.keptInJson, Tree.field?, Tree.kept, Tree.keptPairs_eq_all, names, Function.comp_def,
      Bool.and_assoc]

theorem View.kept_fields (view : View) : (Tree.mapping view.fields).kept = view.keptInJson := by
  obtain ⟨model, elements⟩ := view
  have names : keptAsKey "model" = true ∧ keptAsKey "elements" = true := by decide +kernel
  have items : Tree.keptItems (elements.map Element.toTree) = elements.all Element.keptInJson := by
    rw [Tree.keptItems_eq_all, List.all_map]
    exact congrArg elements.all (funext Element.kept_toTree)
  cases model <;> simp [View.fields, View.keptInJson, Tree.field?, Tree.kept, Tree.keptPairs, items, names]

/-- A view is read back from JSON if its texts are kept. -/
theorem View.ofYaml_pretty {view : View} (kept : view.keptInJson = true) :
    View.ofYaml view.toJson.pretty = .ok view := by
  have document := Tree.ofText?_pretty (view.kept_fields.trans kept)
  rw [view.toJson_fields] at document
  exact View.ofYaml_eq (fun _ => rfl) document

theorem View.ofYaml_unreadable {view : View}
    (unreadable : (Json.prettyChars 0 view.toJson).all Yaml.isReadable = false) :
    View.ofYaml view.toJson.pretty = .error .yaml := by
  have refused : Yaml.tokens? view.toJson.pretty.toList = none := by
    rw [Json.pretty, String.toList_ofList, Yaml.tokens?, if_neg (by simp [unreadable])]
  rw [View.ofYaml, Yaml.read?, Yaml.Document.ofText?, refused]
  rfl

/-! ### Binding again -/

/-- A view that was bound before, with whatever id source, brings the same without generated ids. -/
theorem bindView_rebound {σ τ : Type} {options : Options} {ids : IdSource σ} {view : View} {state : σ} {report : Report}
    (reported : (bindView options ids view state []).result = .ok report) (others : IdSource τ) (state' : τ) :
    bindView options others (bindView options ids view state []).view state' [] =
      ⟨(bindView options ids view state []).view, state', (bindView options ids view state []).log,
        .ok report.withoutIds⟩ := by
  cases resolved : view.resolvedModel? options with
  | none =>
    rw [bindView_unresolved resolved] at reported
    cases reported
  | some model =>
    obtain ⟨reached, reachedAfter, rest, final, failure, split, run, stop⟩ :=
      exists_run_of_bindElements options.rules ids view.elements 0 (.start state)
    have once : bindView options ids view state [] = _ := bindView_of_run resolved split run stop []
    have resolvedAgain : View.resolvedModel? { view with elements := reachedAfter ++ rest } options = some model :=
      resolved
    have twice : bindView options others { view with elements := reachedAfter ++ rest } state' [] = _ :=
      bindView_of_run resolvedAgain rfl (run.again others state') stop []
    rw [once] at reported ⊢
    cases failure with
    | some cause => cases reported
    | none =>
      obtain rfl := Except.ok.inj reported
      exact twice

namespace CommandLine

/-! ### Parses -/

/-- What a parse prints that succeeds. -/
def ParseRequest.outcome (request : ParseRequest) (log : List Registration) (report : Report)
    (written : Option FileWrite) : Outcome where
  code := 0
  output := request.shown log report
  messages := skippedLines report.skipped
  written := written.toList

variable {files : Files} {arguments : List String} {request : ParseRequest} {options : Options} {view : View}
  {bound : BindOutcome UInt64} {report : Report}

theorem exists_files_eq_ok {path : String} (loaded : readView files path = .ok view) :
    ∃ content, files path = .ok content := by
  cases holds : files path with
  | ok content => exact ⟨content, rfl⟩
  | error fault =>
    rw [readView, holds] at loaded
    cases loaded

theorem run_of_runOn {code : UInt32} {after : World String} (ran : runOn (.ofFiles files) arguments = (code, after)) :
    run files arguments = ⟨code, after.output, after.messages, after.written⟩ := by
  rw [run, ran]

theorem ParseRequest.Brings.run (brings : request.Brings files options view bound report)
    (command : Command.read arguments = .ok (.parse request)) :
    run files arguments = request.outcome bound.log report (request.written? bound report) := by
  have onDisk : request.Brings (World.disk { disk := .ofFiles files }).files options view bound report := by
    rwa [Disk.files_ofFiles]
  cases rewrites : request.written? bound report with
  | none =>
    have ran := runOn_of_ok command (onDisk.run_kept rewrites)
    rw [run_of_runOn ran]
    simp [ParseRequest.outcome, World.print, World.warn]
  | some written =>
    obtain ⟨content, holds⟩ := exists_files_eq_ok brings.loaded
    obtain ⟨-, rfl⟩ := ParseRequest.written?_eq_some.mp rewrites
    have took : (Disk.ofFiles files).write (writtenView request.view bound.view) = .ok _ :=
      Disk.write_eq_ok.mpr ⟨request.view, Disk.locate_ofFiles holds, rfl, rfl⟩
    have ran := runOn_of_ok command (onDisk.run_rewritten rewrites took)
    rw [run_of_runOn ran]
    simp [ParseRequest.outcome, World.print, World.warn, World.wrote]

theorem readView_eq_ok {path : String} (read : View.ofFile (files path) = .ok view) :
    readView files path = .ok view := by
  rw [readView, read]
  rfl

/-- The view after a run brings the same again, and no id. -/
theorem ParseRequest.Brings.again (brings : request.Brings files options view bound report) {later : Files}
    {next : ParseRequest} (overrides : next.overrides = request.overrides)
    (given : readOptions later next = .ok options) (loaded : readView later next.view = .ok bound.view) :
    next.Brings later options bound.view ⟨bound.view, IdSource.firstNumber, bound.log, .ok report.withoutIds⟩
      report.withoutIds := by
  obtain ⟨-, -, rfl, reported⟩ := brings
  refine ⟨given, loaded, ?_, rfl⟩
  rw [overrides]
  exact bindView_rebound reported _ _

/-- What is written is read back, in block style and in JSON that keeps all texts. -/
theorem ofFile_writtenView (path : String) {view : View} (kept : isJsonPath path = true → view.keptInJson = true) :
    View.ofFile (.ok (writtenView path view).content) = .ok view := by
  rw [View.ofFile, writtenView]
  split
  · rename_i json
    exact View.ofYaml_pretty (kept json)
  · exact view.ofYaml_toYaml

/-- A parse that writes its view leaves it as the view after the run. Parsing the file again with the same options
brings the same and generates no id. The later run is to load the same options from its files, which leaves out a
file of options that is the file of the view itself. -/
theorem run_written_view (command : Command.read arguments = .ok (.parse request)) (writes : request.writeIds = true)
    (brings : request.Brings files options view bound report) (generated : report.generatedIds ≠ [])
    (kept : isJsonPath request.view = true → bound.view.keptInJson = true) :
    ∃ content, run files arguments = request.outcome bound.log report (some ⟨request.view, content⟩) ∧
      View.ofFile (.ok content) = .ok bound.view ∧
      ∀ (later : Files) (again : List String) (next : ParseRequest), Command.read again = .ok (.parse next) →
        next.view = request.view → next.overrides = request.overrides →
        readOptions later next = .ok options → later request.view = .ok content →
        run later again = next.outcome bound.log report.withoutIds none := by
  have back := ofFile_writtenView request.view kept
  have wanted : request.written? bound report = some (writtenView request.view bound.view) :=
    ParseRequest.rewrites_iff.mpr ⟨⟨writes, generated⟩, rfl⟩
  refine ⟨(writtenView request.view bound.view).content, ?_, back, ?_⟩
  · rw [brings.run command, wanted]
    rfl
  · intro later again next commandAgain sameView overrides given content
    have loaded : readView later next.view = .ok bound.view := readView_eq_ok (by rw [sameView, content, back])
    rw [(brings.again overrides given loaded).run commandAgain]
    simp [ParseRequest.written?, Report.withoutIds]

/-- A title of two lines, which JSON leaves as they are. -/
def titledView : View where
  model := some "m"
  elements := [{ attributes := KeyMap.ofList [("data-bind", "value:a"), ("title", "b:\u2028\"c\"")] }]

def titledFiles : Files := fun _ => .ok titledView.toJson.pretty

def titledRequest (writeIds : Bool) : ParseRequest :=
  { view := "v.json", writeIds }

def titledReport : Report where
  model := "m"
  bindings := KeyMap.ofList [("#stickit_1", { observe := some (.one "a") })]
  generatedIds := ["stickit_1"]
  skipped := []

def titledBound : BindOutcome UInt64 :=
  bindView ((titledRequest true).overrides.apply {}) (.numbered IdSource.defaultStem) titledView
    IdSource.firstNumber []

theorem run_written_view_titled :
    ∃ content, run titledFiles ["parse", "v.json", "--write-ids"] =
        (titledRequest true).outcome titledBound.log titledReport (some ⟨"v.json", content⟩) ∧
      View.ofFile (.ok content) = .ok titledBound.view ∧
      run (fun _ => .ok content) ["parse", "v.json"] =
        (titledRequest false).outcome titledBound.log titledReport.withoutIds none := by
  have back : View.ofYaml titledView.toJson.pretty = .ok titledView := View.ofYaml_pretty (by decide +kernel)
  have loaded : readView titledFiles "v.json" = .ok titledView := by
    rw [readView, titledFiles, View.ofFile, back]
    rfl
  have brings : (titledRequest true).Brings titledFiles {} titledView titledBound titledReport :=
    ⟨rfl, loaded, rfl, by decide +kernel⟩
  have writing : Command.read ["parse", "v.json", "--write-ids"] = .ok (.parse (titledRequest true)) := rfl
  have reading : Command.read ["parse", "v.json"] = .ok (.parse (titledRequest false)) := rfl
  obtain ⟨content, written, back, again⟩ :=
    run_written_view writing rfl brings (by decide) fun _ => by decide +kernel
  exact ⟨content, written, back, again (fun _ => .ok content) _ _ reading rfl rfl rfl rfl⟩

/-- A character that JSON does not escape and YAML does not allow. -/
def deletedView (id : Option String) : View where
  model := some "m"
  elements := [{ id, attributes := KeyMap.ofList [("data-bind", "value:\x7f")] }]

def deletedText : String :=
  "\x7b\"model\":\"m\",\"elements\":[\x7b\"attributes\":\x7b\"data-bind\":\"value:\\u007f\"\x7d\x7d]\x7d"

def deletedReport : Report where
  model := "m"
  bindings := KeyMap.ofList [("#stickit_1", { observe := some (.one "\x7f") })]
  generatedIds := ["stickit_1"]
  skipped := []

/-- A run writes its view as JSON, and what it leaves cannot be read. -/
theorem written_view_unreadable :
    (run (fun _ => .ok deletedText) ["parse", "v.json", "--write-ids"]).code = 0 ∧
      (run (fun _ => .ok deletedText) ["parse", "v.json", "--write-ids"]).written =
        [⟨"v.json", (deletedView (some "stickit_1")).toJson.pretty⟩] ∧
      View.ofFile (.ok (deletedView (some "stickit_1")).toJson.pretty) = .error .yaml := by
  have back : View.ofYaml deletedText = .ok (deletedView none) := by decide +kernel
  have loaded : readView (fun _ => .ok deletedText) "v.json" = .ok (deletedView none) := by
    rw [readView, View.ofFile, back]
    rfl
  have brings : (titledRequest true).Brings (fun _ => .ok deletedText) {} (deletedView none) _ deletedReport :=
    ⟨rfl, loaded, rfl, by decide +kernel⟩
  have writing : Command.read ["parse", "v.json", "--write-ids"] = .ok (.parse (titledRequest true)) := rfl
  have after : (bindView ((titledRequest true).overrides.apply {}) (.numbered IdSource.defaultStem) (deletedView none)
    IdSource.firstNumber []).view = deletedView (some "stickit_1") := by decide +kernel
  rw [brings.run writing, ParseRequest.written?, after]
  refine ⟨rfl, by decide +kernel, ?_⟩
  rw [View.ofFile]
  exact View.ofYaml_unreadable (by decide +kernel)

end CommandLine

end DataBind

/-
  Playfield.Proofs.Command.Run — what a run of the command line prints, writes and answers.

  - Loading leaves every file alone. Boards are loaded in the order of the arguments up to the first
    that fails, and all that is printed are the summaries of those in front of it
    (`check_unsaved`).
  - With a path to save to there is one board, which is loaded first. Saving then fails and leaves
    the tree alone, or it changes the one file that the path leads to (`saved_cases`). What is
    there afterwards is the packed scene, so the scene is loaded from it again
    (`loadScene_of_save`), be the path the board's own.

  `Conduct` is what this makes of a run whose arguments are words, in whatever order; every run
  keeps to it, and one whose arguments are no words complains and changes nothing (`run_conduct`).
  What the bytes of a board are in a legacy encoding is for the decoders to say, and all of this
  holds whatever they say.
-/

import Playfield.Command.Run
import Playfield.Encoding.Scheme
import Playfield.Proofs.Command.Options
import Playfield.Proofs.Files.Tree
import Playfield.Proofs.Scene.Made
import Playfield.Proofs.Scene.Size

namespace Playfield.Command

open Files (ioFault loadBoard loadScene readText saveScene sceneOf textOf)

variable {decoders : Decoders} {ws : List Word} {t t' : FileTree} {e : Encoding}
  {settings : Settings} {s : Scene} {printed board path : String} {boards arguments : List String}

/-! ## Loading and saving in a tree -/

/-- What loading a board from a tree gives. -/
def loaded (decoders : Decoders) (t : FileTree) (e : Encoding) (settings : Settings)
    (board : String) : Except Report Scene :=
  ((loadBoard decoders board e settings : StateM FileTree (Except Report Scene)) t).1

/-- What saving a scene in a tree gives, and the tree afterwards. -/
def saved (t : FileTree) (path : String) (s : Scene) : Except Fault Unit × FileTree :=
  (saveScene path s : StateM FileTree (Except Fault Unit)) t

/-- Loading leaves the tree as it is. -/
theorem loadBoard_eq (decoders : Decoders) (t : FileTree) (e : Encoding) (settings : Settings)
    (board : String) :
    (loadBoard decoders board e settings : StateM FileTree (Except Report Scene)) t =
      (loaded decoders t e settings board, t) :=
  rfl

theorem saveScene_eq (t : FileTree) (path : String) (s : Scene) :
    (saveScene path s : StateM FileTree (Except Fault Unit)) t = saved t path s :=
  rfl

/-- A board that loads is a file with a text that a scene is built from. -/
theorem ofText_of_loaded (h : loaded decoders t e settings board = .ok s) :
    ∃ text, textOf decoders board e (t.read board) = .ok text ∧
      Scene.ofText settings text = .ok s := by
  change sceneOf decoders board e settings (t.read board) = .ok s at h
  unfold sceneOf at h
  split at h
  · cases h
  · next text htext => exact ⟨text, htext, mapError_eq_ok_iff.1 h⟩

/-- Saving fails and leaves the tree alone, or puts the packed scene at one place. -/
theorem saved_cases (t : FileTree) (path : String) (s : Scene) :
    (∃ fault, saved t path s = (.error fault, t)) ∨
      ∃ p, t.locateNew path = .ok p ∧ t.write path s.pack = (.ok (), t.set p (.file s.pack)) ∧
        saved t path s = (.ok (), t.set p (.file s.pack)) := by
  rcases t.write_cases path s.pack with ⟨failure, hwrite⟩ | ⟨p, hp, -, hwrite⟩
  · left
    refine ⟨ioFault failure.stage.verb path failure.cause, ?_⟩
    simp only [saved, saveScene, FileAccess.write, bind, StateT.bind, hwrite]
    rfl
  · right
    refine ⟨p, hp, hwrite, ?_⟩
    simp only [saved, saveScene, FileAccess.write, bind, StateT.bind, hwrite]
    rfl

/-- What was saved is loaded again. -/
theorem loadScene_of_save (hwrite : t.write path s.pack = (.ok (), t')) (hs : s.Sound)
    (hshort : s.Short) :
    (loadScene path : StateM FileTree (Except Fault Scene)) t' = (.ok s, t') := by
  have hread := FileTree.read_of_write hwrite
  simp only [loadScene, FileAccess.read, bind, StateT.bind, hread]
  simp only [Files.packedSceneOf, Scene.unpack_pack hs hshort]
  rfl

/-! ## Checking boards -/

/-- Checking boards in a tree: the outcome, and the tree afterwards. -/
def checkIn (decoders : Decoders) (e : Encoding) (settings : Settings) (save : Option String)
    (printed : String) (boards : List String) (t : FileTree) : Outcome × FileTree :=
  (check decoders e settings save printed boards : StateM FileTree Outcome) t

theorem checkIn_of_error {save : Option String} {report : Report}
    (h : loaded decoders t e settings board = .error report) :
    checkIn decoders e settings save printed (board :: boards) t =
      (.failed printed report.message, t) := by
  simp only [checkIn, check, bind, StateT.bind, loadBoard_eq, h]
  rfl

theorem checkIn_of_ok (h : loaded decoders t e settings board = .ok s) :
    checkIn decoders e settings none printed (board :: boards) t =
      checkIn decoders e settings none (printed ++ summary s) boards t := by
  simp only [checkIn, check, bind, StateT.bind, loadBoard_eq, h]

theorem checkIn_of_save_error {fault : Fault} (h : loaded decoders t e settings board = .ok s)
    (hsave : saved t path s = (.error fault, t')) :
    checkIn decoders e settings (some path) printed [board] t =
      (.failed (printed ++ summary s) fault.message, t') := by
  simp only [checkIn, check, bind, StateT.bind, loadBoard_eq, h, saveScene_eq, hsave]
  rfl

theorem checkIn_of_save_ok (h : loaded decoders t e settings board = .ok s)
    (hsave : saved t path s = (.ok (), t')) :
    checkIn decoders e settings (some path) printed [board] t =
      ({ stdout := printed ++ summary s ++ savedText path }, t') := by
  simp only [checkIn, check, bind, StateT.bind, loadBoard_eq, h, saveScene_eq, hsave]
  rfl

/-- Boards are loaded one after the other: these scenes come of them, up to the end or to the
first board that fails. -/
inductive Checked (load : String → Except Report Scene) :
    List String → List Scene → Option Report → Prop where
  | done : Checked load [] [] none
  | failed {board : String} {boards : List String} {report : Report} :
      load board = .error report → Checked load (board :: boards) [] (some report)
  | next {board : String} {boards : List String} {s : Scene} {scenes : List Scene}
      {report? : Option Report} : load board = .ok s → Checked load boards scenes report? →
      Checked load (board :: boards) (s :: scenes) report?

/-- The outcome when this was printed and then, perhaps, a board failed. -/
def Outcome.after (stdout : String) : Option Report → Outcome
  | none => { stdout }
  | some report => .failed stdout report.message

/-- Without a path to save to, the summaries of the boards in front of the first that fails are
printed, and no file is changed. -/
theorem check_unsaved (decoders : Decoders) (e : Encoding) (settings : Settings)
    (printed : String) (boards : List String) (t : FileTree) :
    ∃ scenes report?, Checked (loaded decoders t e settings) boards scenes report? ∧
      checkIn decoders e settings none printed boards t =
        (.after (printed ++ String.join (scenes.map summary)) report?, t) := by
  induction boards generalizing printed with
  | nil =>
    refine ⟨[], none, .done, ?_⟩
    rw [List.map_nil, String.join_nil, String.append_empty]
    rfl
  | cons board boards ih =>
    cases h : loaded decoders t e settings board with
    | error report =>
      refine ⟨[], some report, .failed h, ?_⟩
      rw [checkIn_of_error h, List.map_nil, String.join_nil, String.append_empty]
      rfl
    | ok s =>
      obtain ⟨scenes, report?, hchecked, hrest⟩ := ih (printed ++ summary s)
      refine ⟨s :: scenes, report?, .next h hchecked, ?_⟩
      rw [checkIn_of_ok h, hrest, List.map_cons, String.join_cons, String.append_assoc]

theorem Checked.failed_iff {load : String → Except Report Scene} {scenes : List Scene}
    {report? : Option Report} (h : Checked load boards scenes report?) :
    report?.isSome ↔ ∃ board ∈ boards, ∃ report, load board = .error report := by
  induction h with
  | done => simp
  | failed hboard => exact ⟨fun _ => ⟨_, List.mem_cons_self, _, hboard⟩, fun _ => rfl⟩
  | @next board boards s scenes report? hboard _ ih =>
    rw [ih]
    simp [hboard]

/-! ## Runs -/

/-- A run in a tree: the outcome, and the tree afterwards. -/
def runIn (decoders : Decoders) (t : FileTree) (arguments : List String) : Outcome × FileTree :=
  (run decoders arguments : StateM FileTree Outcome) t

/-- The words ask to check boards, and for nothing that comes before it. -/
def Checks (ws : List Word) : Prop :=
  .help ∉ ws ∧ .version ∉ ws

/-- There is no board to check, or not the one that is to be saved. -/
def Misfit (ws : List Word) : Prop :=
  boardsOf ws = [] ∨ savePathOf ws ≠ none ∧ (boardsOf ws).length ≠ 1

/-- What loading a board gives a run with these words. -/
def loadedFor (decoders : Decoders) (ws : List Word) (t : FileTree) :
    String → Except Report Scene :=
  loaded decoders t (encodingOf ws) (settingsOf ws)

/-- How a run in the tree `t` behaves when its arguments are the words `ws`. -/
structure Conduct (decoders : Decoders) (ws : List Word) (t : FileTree) (o : Outcome)
    (t' : FileTree) : Prop where
  /-- A file is only changed to save the one board that was loaded, and then only the file that
  the last path leads to. -/
  frame : t' = t ∨ Checks ws ∧ ∃ board s path p, boardsOf ws = [board] ∧
    loadedFor decoders ws t board = .ok s ∧ savePathOf ws = some path ∧ t.locateNew path = .ok p ∧
    t'.workingDirectory = t.workingDirectory ∧ t'.node? p = some (.file s.pack) ∧
    ∀ q, q ≠ p → t'.node? q = t.node? q
  /-- The scene that was loaded is loaded again from where it was saved. -/
  saves : Checks ws → o.code = 0 → ∀ path, savePathOf ws = some path →
    ∃ board s, boardsOf ws = [board] ∧ loadedFor decoders ws t board = .ok s ∧
      (s.Short → (loadScene path : StateM FileTree (Except Fault Scene)) t' = (.ok s, t')) ∧
      ∀ text, (readText decoders board (encodingOf ws) : StateM FileTree (Except Fault String)) t =
        (.ok text, t) → text.utf8ByteSize < 2 ^ 32 → s.Short
  /-- Boards that are not saved are loaded in their order up to the first that fails, and all
  that is printed are the summaries of those in front of it. -/
  prints : Checks ws → ¬Misfit ws → savePathOf ws = none →
    ∃ scenes report?, Checked (loadedFor decoders ws t) (boardsOf ws) scenes report? ∧
      o = .after (String.join (scenes.map summary)) report?
  /-- Nothing is printed for a misfit. -/
  silent : Checks ws → Misfit ws → o.stdout = ""
  code : o.code = 0 ∨ o.code = 1
  fails : o.code = 1 ↔ Checks ws ∧ (Misfit ws ∨
    (∃ board ∈ boardsOf ws, ∃ report, loadedFor decoders ws t board = .error report) ∨
    ∃ board s path fault, boardsOf ws = [board] ∧ loadedFor decoders ws t board = .ok s ∧
      savePathOf ws = some path ∧ (saved t path s).1 = .error fault)

/-- Whoever asks for help or for the version is answered, whatever else is asked. -/
theorem conduct_of_asked {o : Outcome} (h : ¬Checks ws) (hcode : o.code = 0) :
    Conduct decoders ws t o t where
  frame := .inl rfl
  saves hchecks := absurd hchecks h
  prints hchecks := absurd hchecks h
  silent hchecks := absurd hchecks h
  code := .inl hcode
  fails := by
    rw [hcode]
    exact ⟨fun hone => absurd hone (by decide), fun hfails => absurd hfails.1 h⟩

theorem conduct_of_misfit {message : String} (hchecks : Checks ws) (h : Misfit ws) :
    Conduct decoders ws t (.failed "" message) t where
  frame := .inl rfl
  saves _ hcode := absurd hcode (show (1 : UInt32) ≠ 0 by decide)
  prints _ hfit := absurd h hfit
  silent _ _ := rfl
  code := .inr rfl
  fails := ⟨fun _ => ⟨hchecks, .inl h⟩, fun _ => rfl⟩

theorem code_after {stdout : String} {report? : Option Report} :
    (Outcome.after stdout report?).code = if report?.isSome then 1 else 0 := by
  cases report? <;> rfl

theorem conduct_of_unsaved {o : Outcome} (hchecks : Checks ws) (hfit : ¬Misfit ws)
    (hsave : savePathOf ws = none)
    (h : checkIn decoders (encodingOf ws) (settingsOf ws) none "" (boardsOf ws) t = (o, t')) :
    Conduct decoders ws t o t' := by
  obtain ⟨scenes, report?, hchecked, hcheck⟩ :=
    check_unsaved decoders (encodingOf ws) (settingsOf ws) "" (boardsOf ws) t
  rw [String.empty_append] at hcheck
  cases h.symm.trans hcheck
  have hfailed := hchecked.failed_iff
  refine ⟨.inl rfl, ?_, ?_, ?_, ?_, ?_⟩
  case refine_1 =>
    intro _ _ path hpath
    cases hsave.symm.trans hpath
  case refine_2 => exact fun _ _ _ => ⟨scenes, report?, hchecked, rfl⟩
  case refine_3 => exact fun _ hmisfit => absurd hmisfit hfit
  case refine_4 =>
    rw [code_after]
    split
    · exact .inr rfl
    · exact .inl rfl
  case refine_5 =>
    rw [code_after]
    constructor
    · intro hcode
      split at hcode
      · next hsome => exact ⟨hchecks, .inr (.inl (hfailed.1 hsome))⟩
      · exact absurd hcode (by decide)
    · rintro ⟨-, hmisfit | hboard | ⟨_, _, path, _, _, _, hpath, _⟩⟩
      · exact absurd hmisfit hfit
      · rw [if_pos (hfailed.2 hboard)]
      · cases hsave.symm.trans hpath

/-- No frame rate makes a default infinite. -/
theorem finite_settingsOf (ws : List Word) : (settingsOf ws).Finite := by
  have husual : usual.Finite := ⟨by decide, by decide, by decide⟩
  rcases settingsOf_cases ws with hnone | ⟨value, hsome⟩
  · exact hnone ▸ husual
  · obtain ⟨rate, hrate, heq⟩ := exists_of_withFrameRate? hsome
    rw [← heq]
    exact ⟨husual.gravity, husual.friction1, husual.friction2⟩

theorem boardsOf_of_fit (hfit : ¬Misfit ws) (hsave : savePathOf ws = some path) :
    ∃ board, boardsOf ws = [board] := by
  refine List.length_eq_one_iff.1 (Classical.byContradiction fun hone => hfit (.inr ⟨?_, hone⟩))
  rw [hsave]
  exact Option.some_ne_none path

/-- A board that was loaded and saved is loaded again. -/
theorem loadScene_of_loaded (hload : loadedFor decoders ws t board = .ok s)
    (hwrite : t.write path s.pack = (.ok (), t')) :
    (s.Short → (loadScene path : StateM FileTree (Except Fault Scene)) t' = (.ok s, t')) ∧
      ∀ text, (readText decoders board (encodingOf ws) : StateM FileTree (Except Fault String)) t =
        (.ok text, t) → text.utf8ByteSize < 2 ^ 32 → s.Short := by
  obtain ⟨text, htext, hbuilt⟩ := ofText_of_loaded hload
  refine ⟨fun hshort => ?_, fun text' htext' hsize => ?_⟩
  · have hmade := Scene.made_of_ofText (finite_settingsOf ws) hbuilt
    exact loadScene_of_save hwrite hmade.sound hshort
  · change (textOf decoders board (encodingOf ws) (t.read board), t) = (.ok text', t) at htext'
    rw [htext] at htext'
    cases htext'
    exact Scene.short_of_ofText hsize hbuilt

/-- A run that was to save a board and failed at the board or at the saving. -/
theorem conduct_of_failure {printed message : String} (hchecks : Checks ws) (hfit : ¬Misfit ws)
    (hsave : savePathOf ws = some path)
    (hwhy : (∃ board ∈ boardsOf ws, ∃ report, loadedFor decoders ws t board = .error report) ∨
      ∃ board s path fault, boardsOf ws = [board] ∧ loadedFor decoders ws t board = .ok s ∧
        savePathOf ws = some path ∧ (saved t path s).1 = .error fault) :
    Conduct decoders ws t (.failed printed message) t where
  frame := .inl rfl
  saves _ hcode := absurd hcode (show (1 : UInt32) ≠ 0 by decide)
  prints _ _ hnone := nomatch hsave.symm.trans hnone
  silent _ hmisfit := absurd hmisfit hfit
  code := .inr rfl
  fails := ⟨fun _ => ⟨hchecks, .inr hwhy⟩, fun _ => rfl⟩

theorem conduct_of_saved {o : Outcome} (hchecks : Checks ws) (hfit : ¬Misfit ws)
    (hsave : savePathOf ws = some path)
    (h : checkIn decoders (encodingOf ws) (settingsOf ws) (some path) "" (boardsOf ws) t =
      (o, t')) :
    Conduct decoders ws t o t' := by
  obtain ⟨board, hboard⟩ := boardsOf_of_fit hfit hsave
  rw [hboard] at h
  cases hload : loadedFor decoders ws t board with
  | error report =>
    cases h.symm.trans (checkIn_of_error hload)
    have hmem : board ∈ boardsOf ws := by simp [hboard]
    exact conduct_of_failure hchecks hfit hsave (.inl ⟨board, hmem, report, hload⟩)
  | ok s =>
    rcases saved_cases t path s with ⟨fault, hsaved⟩ | ⟨p, hp, hwrite, hsaved⟩
    · cases h.symm.trans (checkIn_of_save_error hload hsaved)
      exact conduct_of_failure hchecks hfit hsave
        (.inr ⟨board, s, path, fault, hboard, hload, hsave, by rw [hsaved]⟩)
    cases h.symm.trans (checkIn_of_save_ok hload hsaved)
    refine ⟨.inr ⟨hchecks, board, s, path, p, hboard, hload, hsave, hp, rfl, ?_, ?_⟩, ?_, ?_, ?_,
      .inl rfl, ?_⟩
    · rw [FileTree.node?_set, if_pos rfl]
    · intro q hq
      rw [FileTree.node?_set, if_neg hq]
    · intro _ _ path' hpath'
      cases hsave.symm.trans hpath'
      exact ⟨board, s, hboard, hload, loadScene_of_loaded hload hwrite⟩
    · exact fun _ _ hnone => nomatch hsave.symm.trans hnone
    · exact fun _ hmisfit => absurd hmisfit hfit
    · refine ⟨fun hcode => absurd hcode (show (0 : UInt32) ≠ 1 by decide), fun hfails => ?_⟩
      rcases hfails with ⟨-, hmisfit | ⟨board', hmem, report, herror⟩ | hfault⟩
      · exact absurd hmisfit hfit
      · rw [hboard, List.mem_singleton] at hmem
        cases hmem
        cases hload.symm.trans herror
      · obtain ⟨board', s', path', fault, hboard', hload', hsave', hfault⟩ := hfault
        cases hboard.symm.trans hboard'
        cases hload.symm.trans hload'
        cases hsave.symm.trans hsave'
        rw [hsaved] at hfault
        cases hfault

/-- What a run may write, print and answer. When its arguments are no words, it complains and
changes nothing. When they are, in whatever order, it keeps to `Conduct`. -/
theorem run_conduct (decoders : Decoders) (arguments : List String) (t : FileTree) :
    ((¬∃ ws, Told ws arguments) →
      ∃ e : UsageError, runIn decoders t arguments = (.failed "" e.message, t)) ∧
    ∀ ws, Told ws arguments →
      Conduct decoders ws t (runIn decoders t arguments).1 (runIn decoders t arguments).2 := by
  constructor
  · intro hnot
    obtain ⟨e, he⟩ := request_of_not_told hnot
    exact ⟨e, by rw [runIn, run, he]; rfl⟩
  intro ws hws
  have hrequest := request_of_told hws
  by_cases hhelp : .help ∈ ws
  · rw [if_pos hhelp] at hrequest
    rw [runIn, run, hrequest]
    exact conduct_of_asked (fun hchecks => hchecks.1 hhelp) rfl
  by_cases hversion : .version ∈ ws
  · rw [if_neg hhelp, if_pos hversion] at hrequest
    rw [runIn, run, hrequest]
    exact conduct_of_asked (fun hchecks => hchecks.2 hversion) rfl
  rw [if_neg hhelp, if_neg hversion] at hrequest
  have hchecks : Checks ws := ⟨hhelp, hversion⟩
  by_cases hboards : boardsOf ws = []
  · rw [if_pos hboards] at hrequest
    rw [runIn, run, hrequest]
    exact conduct_of_misfit hchecks (.inl hboards)
  by_cases hone : savePathOf ws ≠ none ∧ (boardsOf ws).length ≠ 1
  · rw [if_neg hboards, if_pos hone] at hrequest
    rw [runIn, run, hrequest]
    exact conduct_of_misfit hchecks (.inr hone)
  rw [if_neg hboards, if_neg hone] at hrequest
  have hfit : ¬Misfit ws := fun hmisfit => hmisfit.elim hboards hone
  have hrun : runIn decoders t arguments =
      checkIn decoders (encodingOf ws) (settingsOf ws) (savePathOf ws) "" (boardsOf ws) t := by
    rw [runIn, run, hrequest]
    rfl
  cases hsave : savePathOf ws with
  | none =>
    rw [hsave] at hrun
    exact conduct_of_unsaved hchecks hfit hsave hrun.symm
  | some path =>
    rw [hsave] at hrun
    exact conduct_of_saved hchecks hfit hsave hrun.symm

/-- In a tree with the one board `a`, which is in windows-1252 and not in UTF-8: it is saved over
itself, by the last of two paths, and loads from there as what it was; in front of a board that is
not there, its summary is printed; and arguments that break off change nothing. -/
theorem runs_on_one_board :
    let bytes := Text.utf8 "board name=b # caf" ++ [0xe9]
    let t := FileTree.empty.set ["tmp", "boards", "a"] (.file bytes)
    let e := encodingOf [.encoding "latin1"]
    let s : Scene :=
      { name := "b", gravity := ⟨0x4039000000000000⟩, friction1 := ⟨0x3f9999999999999a⟩
        friction2 := ⟨0x3f9999999999999a⟩, registry := ⟨.empty⟩, wiring := ⟨.empty⟩
        timeStep := ⟨0x3fa999999999999a⟩, balls := [] }
    let saving :=
      runIn .ofSchemes t ["--save", "x", "a", "--encoding", "latin1", "--save", "a"]
    (loaded .ofSchemes t e usual "a" = .ok s ∧ saving.1.code = 0 ∧
      ((loadScene "a" : StateM FileTree (Except Fault Scene)) saving.2).1 = .ok s) ∧
    (runIn .ofSchemes t ["a", "x", "a", "--encoding", "latin1"]).1.stdout = summary s ∧
    (runIn .ofSchemes t ["a", "--save"]).2 = t := by
  intro bytes t e s saving
  have hload : loaded .ofSchemes t e usual "a" = .ok s := by decide +kernel
  refine ⟨⟨hload, by decide +kernel, ?_⟩, ?_, ?_⟩
  · have htold : Told [.save "x", .board "a", .encoding "latin1", .save "a"]
        ["--save", "x", "a", "--encoding", "latin1", "--save", "a"] :=
      .cons .save (.cons (.board (by decide)) (.cons (.encoding (by decide +kernel))
        (.cons .save .nil)))
    obtain ⟨board, s', hboard, hload', hagain, hshort⟩ :=
      ((run_conduct .ofSchemes _ t).2 _ htold).saves ⟨by decide, by decide⟩ (by decide +kernel)
        "a" rfl
    cases hboard
    cases hload.symm.trans hload'
    have htext : textOf .ofSchemes "a" e (t.read "a") = .ok "board name=b # café" := by
      decide +kernel
    rw [hagain (hshort "board name=b # café" ?_ (by decide +kernel))]
    show (textOf .ofSchemes "a" e (t.read "a"), t) = _
    rw [htext]
  · have htold : Told [.board "a", .board "x", .board "a", .encoding "latin1"]
        ["a", "x", "a", "--encoding", "latin1"] :=
      .cons (.board (by decide)) (.cons (.board (by decide)) (.cons (.board (by decide))
        (.cons (.encoding (by decide +kernel)) .nil)))
    obtain ⟨scenes, report?, hchecked, hout⟩ :=
      ((run_conduct .ofSchemes _ t).2 _ htold).prints ⟨by decide, by decide⟩
        (by unfold Misfit; decide) rfl
    rw [hout]
    have hmissing : ∀ s', loaded .ofSchemes t e usual "x" ≠ .ok s' := by
      intro s' h
      have hfails : (loaded .ofSchemes t e usual "x").isOk = false := by decide +kernel
      rw [h] at hfails
      cases hfails
    cases hchecked with
    | failed h => cases hload.symm.trans h
    | next h hrest =>
      cases hload.symm.trans h
      cases hrest with
      | failed _ =>
        show String.join [summary s] = summary s
        rw [String.join_cons, String.join_nil, String.append_empty]
      | next h' => exact absurd h' (hmissing _)
  · have hnot : ¬∃ ws, Told ws ["a", "--save"] := by
      rintro ⟨ws, hws⟩
      cases take_told [] hws
    obtain ⟨e, he⟩ := (run_conduct .ofSchemes _ t).1 hnot
    rw [he]

end Playfield.Command

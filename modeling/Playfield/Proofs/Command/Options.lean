/-
  Playfield.Proofs.Command.Options — which arguments are accepted, and what they ask for.

  Arguments are words, one behind the other (`Told`): an option takes the argument behind it
  whatever that looks like, and a word that is no option is a board. Taking the arguments one by
  one accepts these and no others (`request_of_told`, `request_of_not_told`). What accepted
  arguments ask for is read off the words: all the boards in their order, and of every option the
  last (`Options.ofWords`). The carrier is one lemma per word, `take_word`; that a frame rate
  replaces the one before it, and nothing else, is `withFrameRate?_of_withFrameRate?`.
-/

import Playfield.Command.Options
import Playfield.Proofs.Result

namespace Playfield.Command

/-! ## Frame rates -/

/-- A value is no frame rate for any settings, or it is the same one for all. -/
theorem withFrameRate?_cases (value : String) :
    (∀ s, withFrameRate? s value = none) ∨
      ∃ rate hrate, ∀ s, withFrameRate? s value = some (s.withFrameRate rate hrate) := by
  simp only [withFrameRate?]
  split
  all_goals
    split
    · exact .inl fun _ => rfl
    split
    · split
      · exact .inr ⟨_, ‹_›, fun _ => rfl⟩
      · exact .inl fun _ => rfl
    · exact .inl fun _ => rfl

theorem isSome_withFrameRate? (s s' : Settings) (value : String) :
    (withFrameRate? s value).isSome = (withFrameRate? s' value).isSome := by
  rcases withFrameRate?_cases value with hnone | ⟨rate, hrate, hsome⟩
  · rw [hnone s, hnone s']
  · rw [hsome s, hsome s']
    rfl

theorem exists_of_withFrameRate? {s s' : Settings} {value : String}
    (h : withFrameRate? s value = some s') : ∃ rate hrate, s.withFrameRate rate hrate = s' := by
  rcases withFrameRate?_cases value with hnone | ⟨rate, hrate, hsome⟩
  · cases (hnone s).symm.trans h
  · exact ⟨rate, hrate, Option.some.inj ((hsome s).symm.trans h)⟩

/-- The frame rate that was given before is forgotten. -/
theorem withFrameRate?_of_withFrameRate? {s s' : Settings} {value : String} (value' : String)
    (h : withFrameRate? s value = some s') : withFrameRate? s' value' = withFrameRate? s value' := by
  obtain ⟨rate, hrate, rfl⟩ := exists_of_withFrameRate? h
  rcases withFrameRate?_cases value' with hnone | ⟨rate', hrate', hsome⟩
  · rw [hnone, hnone]
  · rw [hsome, hsome]
    rfl

theorem usualRate_pos : 0 < (20 : UInt32).toNat := by decide

/-- The settings when no frame rate is given. -/
def usual : Settings :=
  { frameRate_pos := usualRate_pos }

/-! ## Words -/

/-- What an option asks for, or an argument that is none. -/
inductive Word where
  | help
  | version
  | frameRate (value : String)
  | encoding (label : String)
  | save (path : String)
  | board (path : String)
  deriving DecidableEq

/-- How a word is written. -/
inductive Word.Written : Word → List String → Prop where
  | shortHelp : Written .help ["-h"]
  | help : Written .help ["--help"]
  | shortVersion : Written .version ["-V"]
  | version : Written .version ["--version"]
  | frameRate {value : String} (h : (withFrameRate? usual value).isSome) :
      Written (.frameRate value) ["--frame-rate", value]
  | encoding {label : String} (h : (Encoding.ofLabel? label).isSome) :
      Written (.encoding label) ["--encoding", label]
  | save {path : String} : Written (.save path) ["--save", path]
  | board {path : String} (h : path.toList.head? ≠ some '-') : Written (.board path) [path]

/-- The arguments are these words, one behind the other. -/
inductive Told : List Word → List String → Prop where
  | nil : Told [] []
  | cons {w : Word} {ws : List Word} {front rest : List String} :
      w.Written front → Told ws rest → Told (w :: ws) (front ++ rest)

/-! ## What words ask for -/

namespace Word

@[simp] def board? : Word → Option String
  | .board path => some path
  | _ => none

@[simp] def save? : Word → Option String
  | .save path => some path
  | _ => none

@[simp] def encoding? : Word → Option Encoding
  | .encoding label => Encoding.ofLabel? label
  | _ => none

@[simp] def settings? : Word → Option Settings
  | .frameRate value => withFrameRate? usual value
  | _ => none

end Word

section Asked

variable (ws : List Word)

def boardsOf : List String :=
  ws.filterMap Word.board?

/-- The path of the last word that asks for saving. -/
def savePathOf : Option String :=
  (ws.filterMap Word.save?).getLast?

def encodingOf : Encoding :=
  (ws.filterMap Word.encoding?).getLast?.getD .utf8

def settingsOf : Settings :=
  (ws.filterMap Word.settings?).getLast?.getD usual

/-- All that the words ask for. -/
def Options.ofWords : Options :=
  { boards := boardsOf ws
    help := decide (.help ∈ ws)
    version := decide (.version ∈ ws)
    settings := settingsOf ws
    encoding := encodingOf ws
    save := savePathOf ws }

end Asked

variable {w : Word} {ws ws' : List Word} {o o' : Options} {arguments front rest : List String}

theorem getLast?_filterMap_append_singleton {α β : Type} (f : α → Option β) (l : List α) (a : α)
    (b : β) : ((l ++ [a]).filterMap f).getLast?.getD b =
      (f a).getD ((l.filterMap f).getLast?.getD b) := by
  cases h : f a <;> simp [h]

/-- The settings are the usual ones, or these with the frame rate of a word. -/
theorem settingsOf_cases (ws : List Word) :
    settingsOf ws = usual ∨ ∃ value, withFrameRate? usual value = some (settingsOf ws) := by
  rw [settingsOf]
  cases hlast : (ws.filterMap Word.settings?).getLast? with
  | none => exact .inl rfl
  | some s =>
    obtain ⟨w, -, hw⟩ := List.mem_filterMap.1 (List.mem_of_getLast? hlast)
    cases w with
    | frameRate value => exact .inr ⟨value, hw⟩
    | _ => cases hw

/-- One more frame rate is understood as if it were the first. -/
theorem withFrameRate?_settingsOf (ws : List Word) (value : String) :
    withFrameRate? (settingsOf ws) value = withFrameRate? usual value := by
  rcases settingsOf_cases ws with hnone | ⟨value', hsome⟩
  · rw [hnone]
  · exact withFrameRate?_of_withFrameRate? value hsome

/-! ## Taking the arguments -/

theorem ofWords_append (ws : List Word) (w : Word) :
    Options.ofWords (ws ++ [w]) =
      { boards := boardsOf ws ++ w.board?.toList
        help := decide (.help ∈ ws) || decide (w = .help)
        version := decide (.version ∈ ws) || decide (w = .version)
        settings := w.settings?.getD (settingsOf ws)
        encoding := w.encoding?.getD (encodingOf ws)
        save := w.save?.or (savePathOf ws) } := by
  rw [Options.ofWords, settingsOf, getLast?_filterMap_append_singleton, encodingOf,
    getLast?_filterMap_append_singleton]
  cases w <;> simp [boardsOf, savePathOf, settingsOf, encodingOf]

/-- An argument that begins with no dash is a board. -/
theorem take_board (o : Options) {argument : String} (h : argument.toList.head? ≠ some '-')
    (rest : List String) :
    o.take (argument :: rest) = { o with boards := o.boards ++ [argument] }.take rest := by
  have hne : ∀ option : String, option.toList.head? = some '-' → argument ≠ option := by
    rintro option hoption rfl
    exact h hoption
  rw [Options.take, if_neg h]
  · exact hne "-h" rfl
  · exact hne "--help" rfl
  · exact hne "-V" rfl
  · exact hne "--version" rfl
  · exact fun heq _ => hne "--frame-rate" rfl heq
  · exact fun _ _ heq _ => hne "--frame-rate" rfl heq
  · exact fun heq _ => hne "--encoding" rfl heq
  · exact fun _ _ heq _ => hne "--encoding" rfl heq
  · exact fun heq _ => hne "--save" rfl heq
  · exact fun _ _ heq _ => hne "--save" rfl heq

theorem take_word (h : w.Written front) :
    (Options.ofWords ws).take (front ++ rest) = (Options.ofWords (ws ++ [w])).take rest := by
  rw [ofWords_append]
  cases h with
  | frameRate h =>
    obtain ⟨settings, hs⟩ := Option.isSome_iff_exists.1 h
    have hs' := (withFrameRate?_settingsOf ws _).trans hs
    simp [Options.take, Options.ofWords, hs, hs']
  | encoding h =>
    obtain ⟨encoding, he⟩ := Option.isSome_iff_exists.1 h
    simp [Options.take, Options.ofWords, he]
  | board h =>
    simp [take_board _ h, Options.ofWords]
  | _ => simp [Options.take, Options.ofWords]

theorem take_told (ws : List Word) (h : Told ws' arguments) :
    (Options.ofWords ws).take arguments = .ok (Options.ofWords (ws ++ ws')) := by
  induction h generalizing ws with
  | nil => rw [List.append_nil, Options.take]
  | @cons w ws' front rest hw _ ih =>
    rw [take_word hw, ih, List.append_assoc, List.singleton_append]

theorem Told.word (hw : w.Written front) (h : ∃ ws, Told ws rest) :
    ∃ ws, Told ws (front ++ rest) := by
  obtain ⟨ws, hws⟩ := h
  exact ⟨w :: ws, .cons hw hws⟩

/-- Arguments are taken to the end only if they are words. -/
theorem told_of_take (h : o.take arguments = .ok o') : ∃ ws, Told ws arguments := by
  induction o, arguments using Options.take.induct with
  | case1 => exact ⟨[], .nil⟩
  | case2 o rest ih =>
    rw [Options.take] at h
    exact Told.word .shortHelp (ih h)
  | case3 o rest ih =>
    rw [Options.take] at h
    exact Told.word .help (ih h)
  | case4 o rest ih =>
    rw [Options.take] at h
    exact Told.word .shortVersion (ih h)
  | case5 o rest ih =>
    rw [Options.take] at h
    exact Told.word .version (ih h)
  | case7 o value rest settings hvalue ih =>
    rw [Options.take, hvalue] at h
    have hsome := isSome_withFrameRate? usual o.settings value
    rw [hvalue] at hsome
    exact Told.word (.frameRate hsome) (ih h)
  | case10 o label rest encoding hlabel ih =>
    rw [Options.take, hlabel] at h
    exact Told.word (.encoding (Option.isSome_of_eq_some hlabel)) (ih h)
  | case13 o path rest ih =>
    rw [Options.take] at h
    exact Told.word .save (ih h)
  | case15 o argument rest _ _ _ _ _ _ _ _ _ _ hdash ih =>
    rw [take_board o hdash] at h
    exact Told.word (.board hdash) (ih h)
  -- What is left are the arguments that are refused.
  | case8 o value rest hvalue =>
    rw [Options.take, hvalue] at h
    cases h
  | case11 o label rest hlabel =>
    rw [Options.take, hlabel] at h
    cases h
  | case14 o argument rest _ _ _ _ _ _ _ _ _ _ hdash =>
    rw [Options.take, if_pos hdash] at h
    · cases h
    all_goals assumption
  | _ =>
    rw [Options.take] at h
    cases h

/-! ## Requests -/

/-- What accepted arguments ask for. -/
theorem request_of_told (h : Told ws arguments) :
    request arguments =
      if .help ∈ ws then .ok .help
      else if .version ∈ ws then .ok .version
      else if boardsOf ws = [] then .error .noBoards
      else if savePathOf ws ≠ none ∧ (boardsOf ws).length ≠ 1 then .error .saveNeedsOneBoard
      else .ok (.check (boardsOf ws) (encodingOf ws) (settingsOf ws) (savePathOf ws)) := by
  have htake : Options.take {} arguments = .ok (Options.ofWords ws) := take_told [] h
  rw [request, htake]
  simp only [bind, Except.bind, pure, Except.pure, throw, throwThe, MonadExceptOf.throw,
    Options.ofWords]
  by_cases hhelp : .help ∈ ws
  · simp [hhelp]
  by_cases hversion : .version ∈ ws
  · simp [hhelp, hversion]
  by_cases hboards : boardsOf ws = []
  · simp [hhelp, hversion, hboards]
  by_cases hsave : savePathOf ws = none
  · simp [hhelp, hversion, hboards, hsave]
  by_cases hone : (boardsOf ws).length = 1
  · simp [hhelp, hversion, hboards, hsave, hone]
  · simp [hhelp, hversion, hboards, hsave, hone]

theorem request_of_not_told (h : ¬∃ ws, Told ws arguments) : ∃ e, request arguments = .error e := by
  cases htake : Options.take {} arguments with
  | error e => exact ⟨e, by rw [request, htake]; rfl⟩
  | ok o => exact absurd (told_of_take htake) h

end Playfield.Command

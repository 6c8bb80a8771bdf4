import Formula.CommandLine.Arguments
import Formula.Proofs.Lexemes

/-! What command lines say. The arguments behind a command are a sequence of options, options with
values, and expressions; reading them sets one after the other. A sequence is accepted if every
item of it may stand behind those in front of it, and then the settings are a function of it. -/
namespace Formula.CommandLine

def Command.name : Command → String
  | .tokenize => "tokenize"
  | .parse => "parse"
  | .eval => "eval"

inductive Said where
  | mark (flag : Flag)
  | value (flag : Flag) (text : String)
  | expression (text : String)
  deriving DecidableEq, Repr

/-- The value that is attached to a letter, with an equals sign in front of it or without. -/
def attached : List Char → String
  | '=' :: value => String.ofList value
  | value => String.ofList value

inductive SaysLetters (scope : Option Command) : List Char → List Said → Option Flag → Prop where
  | done : SaysLetters scope [] [] none
  | mark {flag : Flag} {letter : Char} {more : List Char} {said : List Said}
      {waiting : Option Flag} (allowed : flag.allowed scope = true)
      (spelled : flag.letter? = some letter) (bare : flag.takesValue = false)
      (behind : SaysLetters scope more said waiting) :
      SaysLetters scope (letter :: more) (.mark flag :: said) waiting
  | waiting {flag : Flag} {letter : Char} (allowed : flag.allowed scope = true)
      (spelled : flag.letter? = some letter) (takes : flag.takesValue = true) :
      SaysLetters scope [letter] [] (some flag)
  | value {flag : Flag} {letter : Char} {text : List Char} (allowed : flag.allowed scope = true)
      (spelled : flag.letter? = some letter) (takes : flag.takesValue = true) (given : text ≠ []) :
      SaysLetters scope (letter :: text) [.value flag (attached text)] none

inductive SaysName (scope : Option Command) : List Char → List Said → Option Flag → Prop where
  | mark {flag : Flag} (allowed : flag.allowed scope = true) (bare : flag.takesValue = false) :
      SaysName scope flag.name.toList [.mark flag] none
  | waiting {flag : Flag} (allowed : flag.allowed scope = true) (takes : flag.takesValue = true) :
      SaysName scope flag.name.toList [] (some flag)
  | value {flag : Flag} {text : List Char} (allowed : flag.allowed scope = true)
      (takes : flag.takesValue = true) :
      SaysName scope (flag.name.toList ++ '=' :: text) [.value flag (String.ofList text)] none

inductive SaysOption (scope : Option Command) (argument : String) :
    List Said → Option Flag → Prop where
  | letters {cs : List Char} {said : List Said} {waiting : Option Flag}
      (text : argument.toList = '-' :: cs) (given : cs ≠ [])
      (told : SaysLetters scope cs said waiting) :
      SaysOption scope argument said waiting
  | name {cs : List Char} {said : List Said} {waiting : Option Flag}
      (text : argument.toList = '-' :: '-' :: cs) (told : SaysName scope cs said waiting) :
      SaysOption scope argument said waiting

inductive Says (command : Command) : List String → List Said → Prop where
  | done : Says command [] []
  | literally (arguments : List String) :
      Says command ("--" :: arguments) (arguments.map .expression)
  | expression {argument : String} {arguments : List String} {said : List Said}
      (plain : Settings.isPlain argument = true) (behind : Says command arguments said) :
      Says command (argument :: arguments) (.expression argument :: said)
  | option {argument : String} {arguments : List String} {front said : List Said}
      (told : SaysOption (some command) argument front none)
      (behind : Says command arguments said) : Says command (argument :: arguments) (front ++ said)
  | value {argument text : String} {arguments : List String} {front said : List Said} {flag : Flag}
      (told : SaysOption (some command) argument front (some flag))
      (plain : Settings.isPlain text = true) (behind : Says command arguments said) :
      Says command (argument :: text :: arguments) (front ++ .value flag text :: said)

/-- A command line: what is said in front of its command, the command, and what is said behind. -/
inductive Calls : List String → List Said → Command → List Said → Prop where
  | command {command : Command} {arguments : List String} {said : List Said}
      (behind : Says command arguments said) :
      Calls (command.name :: arguments) [] command said
  | option {argument : String} {arguments : List String} {front before said : List Said}
      {command : Command} (told : SaysOption none argument front none)
      (behind : Calls arguments before command said) :
      Calls (argument :: arguments) (front ++ before) command said

def Settings.take (s : Settings) : Said → Except Stop Settings
  | .mark flag => s.mark flag
  | .value flag text => s.store flag text
  | .expression text => s.place text

section Options

variable {flag : Flag} {scope : Option Command}

theorem Flag.ofLetter?_eq_some_iff {letter : Char} : ofLetter? scope letter = some flag ↔
    flag.allowed scope = true ∧ flag.letter? = some letter := by
  constructor
  · intro h
    simpa using List.find?_some h
  · rintro ⟨allowed, spelled⟩
    cases flag <;> cases spelled <;> revert allowed <;> rcases scope with _ | _ | _ | _ <;> decide

theorem Flag.ofName?_eq_some_iff {name : String} : ofName? scope name = some flag ↔
    flag.allowed scope = true ∧ flag.name = name := by
  constructor
  · intro h
    simpa using List.find?_some h
  · rintro ⟨allowed, rfl⟩
    revert allowed
    cases flag <;> rcases scope with _ | _ | _ | _ <;> decide

theorem Flag.ne_equals_of_mem_name : ∀ c ∈ flag.name.toList, decide (c ≠ '=') = true := by
  rw [← List.all_eq_true]
  cases flag <;> decide

/-- No option in front of a command takes a value. -/
theorem Flag.takesValue_of_allowed_none (h : flag.allowed none = true) :
    flag.takesValue = false := by
  revert h
  cases flag <;> decide

theorem Command.ofName?_eq_some_iff {name : String} {command : Command} :
    ofName? name = some command ↔ name = command.name := by
  constructor
  · intro h
    unfold ofName? at h
    repeat' split at h
    all_goals
      cases h
      try assumption
  · rintro rfl
    cases command <;> decide

theorem Command.isPlain_name (command : Command) : Settings.isPlain command.name = true := by
  cases command <;> decide

end Options

/-- A text with an equals sign in it is split at the first one. -/
theorem eq_append_of_dropWhile {cs text : List Char} {c : Char}
    (h : cs.dropWhile (· ≠ '=') = c :: text) : cs = cs.takeWhile (· ≠ '=') ++ '=' :: text := by
  have hc := List.head?_dropWhile_not (fun c => decide (c ≠ '=')) cs
  rw [h] at hc
  obtain rfl : c = '=' := by simpa using hc
  rw [← h, List.takeWhile_append_dropWhile]

namespace Settings

variable {scope : Option Command} {command : Command} {s s' : Settings} {argument : String}
  {arguments : List String} {waiting : Option Flag} {said : List Said}

theorem foldlM_append_eq_ok_iff {front behind : List Said} :
    (front ++ behind).foldlM take s = .ok s' ↔
      ∃ m, front.foldlM take s = .ok m ∧ behind.foldlM take m = .ok s' := by
  rw [List.foldlM_append]
  cases front.foldlM take s with
  | error stop => simp [bind, Except.bind]
  | ok m => simp [bind, Except.bind]

theorem foldlM_cons_eq_ok_iff {item : Said} {behind : List Said} :
    (item :: behind).foldlM take s = .ok s' ↔
      ∃ m, s.take item = .ok m ∧ behind.foldlM take m = .ok s' := by
  rw [List.foldlM_cons]
  cases s.take item with
  | error stop => simp [bind, Except.bind]
  | ok m => simp [bind, Except.bind]

theorem foldlM_singleton_eq_ok_iff {item : Said} :
    [item].foldlM take s = .ok s' ↔ s.take item = .ok s' := by
  rw [foldlM_cons_eq_ok_iff]
  exact ⟨fun ⟨m, hm, rest⟩ => by cases rest; exact hm, fun h => ⟨s', h, rfl⟩⟩

theorem map_eq_ok_iff {x : Except Stop Settings} :
    x.map (·, (.none : Option Flag)) = .ok (s', waiting) ↔ x = .ok s' ∧ waiting = .none := by
  cases x <;> simp [Except.map, eq_comm]

theorem letters_of_value {letter : Char} {text : List Char} {flag : Flag}
    (hflag : Flag.ofLetter? scope letter = some flag) (takes : flag.takesValue = true)
    (given : text ≠ []) :
    s.letters scope (letter :: text) = (s.store flag (attached text)).map (·, .none) := by
  rw [letters, hflag]
  simp only [takes, if_true]
  split
  · exact absurd rfl given
  · rfl
  · next apart => rw [attached.eq_2 _ fun _ h => apart _ h]

/-- Reading letters sets what they say. -/
theorem letters_eq_ok_iff {cs : List Char} : s.letters scope cs = .ok (s', waiting) ↔
    ∃ said, SaysLetters scope cs said waiting ∧ said.foldlM take s = .ok s' := by
  induction cs generalizing s with
  | nil =>
    constructor
    · intro h
      cases h
      exact ⟨[], .done, rfl⟩
    · rintro ⟨said, told, taken⟩
      cases told
      cases taken
      rfl
  | cons letter more ih =>
    constructor
    · intro h
      cases hletter : Flag.ofLetter? scope letter with
      | none =>
        rw [letters, hletter] at h
        cases h
      | some flag =>
        obtain ⟨allowed, spelled⟩ := Flag.ofLetter?_eq_some_iff.mp hletter
        cases takes : flag.takesValue with
        | true =>
          cases more with
          | nil =>
            simp only [letters, hletter, takes, if_true] at h
            cases h
            exact ⟨[], .waiting allowed spelled takes, rfl⟩
          | cons c cs =>
            have given : c :: cs ≠ [] := List.cons_ne_nil _ _
            rw [letters_of_value hletter takes given] at h
            obtain ⟨stored, rfl⟩ := map_eq_ok_iff.mp h
            exact ⟨_, .value allowed spelled takes given, foldlM_singleton_eq_ok_iff.mpr stored⟩
        | false =>
          simp only [letters, hletter, takes] at h
          cases hmark : s.mark flag with
          | error stop => simp [hmark] at h
          | ok m =>
            simp only [hmark] at h
            obtain ⟨said, told, taken⟩ := ih.mp h
            exact ⟨_, .mark allowed spelled takes told, foldlM_cons_eq_ok_iff.mpr ⟨m, hmark, taken⟩⟩
    · rintro ⟨said, told, taken⟩
      cases told with
      | @mark flag _ _ said _ allowed spelled bare behind =>
        obtain ⟨m, hmark, taken⟩ := foldlM_cons_eq_ok_iff.mp taken
        have hletter := Flag.ofLetter?_eq_some_iff.mpr ⟨allowed, spelled⟩
        rw [take] at hmark
        simp only [letters, hletter, bare, hmark]
        exact ih.mpr ⟨said, behind, taken⟩
      | waiting allowed spelled takes =>
        cases taken
        simp [letters, Flag.ofLetter?_eq_some_iff.mpr ⟨allowed, spelled⟩, takes]
      | value allowed spelled takes given =>
        rw [letters_of_value (Flag.ofLetter?_eq_some_iff.mpr ⟨allowed, spelled⟩) takes given]
        exact map_eq_ok_iff.mpr ⟨foldlM_singleton_eq_ok_iff.mp taken, rfl⟩

theorem named_of_name {flag : Flag} (allowed : flag.allowed scope = true) :
    s.named scope flag.name.toList =
      if flag.takesValue then .ok (s, some flag) else (s.mark flag).map (·, .none) := by
  have hname : flag.name.toList.takeWhile (· ≠ '=') = flag.name.toList :=
    List.takeWhile_eq_self_iff.mpr flag.ne_equals_of_mem_name
  have hrest : flag.name.toList.dropWhile (· ≠ '=') = [] :=
    List.dropWhile_eq_nil_iff.mpr flag.ne_equals_of_mem_name
  rw [named, hname, hrest, String.ofList_toList, Flag.ofName?_eq_some_iff.mpr ⟨allowed, rfl⟩]

theorem named_of_value {flag : Flag} (allowed : flag.allowed scope = true) (text : List Char) :
    s.named scope (flag.name.toList ++ '=' :: text) =
      if flag.takesValue then (s.store flag (String.ofList text)).map (·, .none)
      else .error .misuse := by
  obtain ⟨hname, hrest⟩ := takeWhile_append_cons flag.ne_equals_of_mem_name
    (p := fun c => decide (c ≠ '=')) (c := '=') (by simp) text
  rw [named, hname, hrest, String.ofList_toList, Flag.ofName?_eq_some_iff.mpr ⟨allowed, rfl⟩]

theorem exists_name_of_named {cs : List Char} (h : s.named scope cs = .ok (s', waiting)) :
    ∃ flag : Flag, flag.allowed scope = true ∧
      (cs = flag.name.toList ∨ ∃ text, cs = flag.name.toList ++ '=' :: text) := by
  cases hname : Flag.ofName? scope (String.ofList (cs.takeWhile (· ≠ '='))) with
  | none =>
    rw [named, hname] at h
    cases h
  | some flag =>
    obtain ⟨allowed, hflag⟩ := Flag.ofName?_eq_some_iff.mp hname
    refine ⟨flag, allowed, ?_⟩
    rw [hflag, String.toList_ofList]
    cases hrest : cs.dropWhile (· ≠ '=') with
    | nil => exact .inl (List.takeWhile_eq_self_iff.mpr (List.dropWhile_eq_nil_iff.mp hrest)).symm
    | cons c text => exact .inr ⟨text, eq_append_of_dropWhile hrest⟩

/-- Reading a name sets what it says. -/
theorem named_eq_ok_iff {cs : List Char} : s.named scope cs = .ok (s', waiting) ↔
    ∃ said, SaysName scope cs said waiting ∧ said.foldlM take s = .ok s' := by
  constructor
  · intro h
    obtain ⟨flag, allowed, rfl | ⟨text, rfl⟩⟩ := exists_name_of_named h
    · rw [named_of_name allowed] at h
      cases takes : flag.takesValue with
      | true =>
        simp only [takes, if_true] at h
        cases h
        exact ⟨[], .waiting allowed takes, rfl⟩
      | false =>
        simp only [takes] at h
        obtain ⟨marked, rfl⟩ := map_eq_ok_iff.mp h
        exact ⟨_, .mark allowed takes, foldlM_singleton_eq_ok_iff.mpr marked⟩
    · rw [named_of_value allowed] at h
      cases takes : flag.takesValue with
      | true =>
        simp only [takes, if_true] at h
        obtain ⟨stored, rfl⟩ := map_eq_ok_iff.mp h
        exact ⟨_, .value allowed takes, foldlM_singleton_eq_ok_iff.mpr stored⟩
      | false => simp [takes] at h
  · rintro ⟨said, told, taken⟩
    cases told with
    | mark allowed bare =>
      simp only [named_of_name allowed, bare]
      exact map_eq_ok_iff.mpr ⟨foldlM_singleton_eq_ok_iff.mp taken, rfl⟩
    | waiting allowed takes =>
      cases taken
      simp [named_of_name allowed, takes]
    | value allowed takes =>
      simp only [named_of_value allowed, takes, if_true]
      exact map_eq_ok_iff.mpr ⟨foldlM_singleton_eq_ok_iff.mp taken, rfl⟩

theorem isPlain_eq_false_iff : isPlain argument = false ↔
    ∃ cs, cs ≠ [] ∧ argument.toList = '-' :: cs := by
  have hdash : argument = "-" ↔ argument.toList = ['-'] := String.toList_inj.symm
  cases h : argument.toList with
  | nil => simp [isPlain, h]
  | cons c cs =>
    simp only [isPlain, h, hdash]
    by_cases hc : c = '-' <;> simp [hc]

/-- No letter is a dash. -/
theorem not_saysLetters_dash {cs : List Char} : ¬ SaysLetters scope ('-' :: cs) said waiting := by
  have hletter (flag : Flag) : flag.letter? ≠ some '-' := by cases flag <;> decide
  rintro (_ | ⟨_, spelled, _⟩ | ⟨_, spelled, _⟩ | ⟨_, spelled, _⟩)
  all_goals exact hletter _ spelled

/-- Reading an argument that begins with a dash sets what it says. -/
theorem option_eq_ok_iff (dashed : isPlain argument = false) :
    s.option scope argument = .ok (s', waiting) ↔
      ∃ said, SaysOption scope argument said waiting ∧ said.foldlM take s = .ok s' := by
  obtain ⟨cs, given, htext⟩ := isPlain_eq_false_iff.mp dashed
  by_cases hname : ∃ name, cs = '-' :: name
  · obtain ⟨name, rfl⟩ := hname
    simp only [option, htext, named_eq_ok_iff]
    refine exists_congr fun said => and_congr_left' ⟨.name htext, fun told => ?_⟩
    cases told with
    | letters text given told =>
      -- Two dashes are never letters behind the first of them.
      obtain rfl := (List.cons.inj (htext.symm.trans text)).2
      exact absurd told not_saysLetters_dash
    | name text told =>
      obtain rfl := (List.cons.inj (List.cons.inj (htext.symm.trans text)).2).2
      exact told
  · have hletters : s.option scope argument = s.letters scope cs := by
      rw [option, htext]
      split
      · next h => exact absurd ⟨_, (List.cons.inj h).2⟩ hname
      · next h => rw [(List.cons.inj h).2]
      · next h => cases h
    rw [hletters, letters_eq_ok_iff]
    refine exists_congr fun said => and_congr_left' ⟨.letters htext given, fun told => ?_⟩
    cases told with
    | letters text given told =>
      obtain rfl := (List.cons.inj (htext.symm.trans text)).2
      exact told
    | name text told => exact absurd ⟨_, (List.cons.inj (htext.symm.trans text)).2⟩ hname

/-- Setting expressions one after another sets what they say. -/
theorem foldlM_place_eq (s : Settings) (arguments : List String) :
    arguments.foldlM place s = (arguments.map Said.expression).foldlM take s := by
  rw [List.foldlM_map]
  rfl

theorem ne_nil_of_saysName {cs : List Char} (told : SaysName scope cs said waiting) : cs ≠ [] := by
  have hname (flag : Flag) : flag.name.toList ≠ [] := by cases flag <;> decide
  cases told with
  | mark => exact hname _
  | waiting => exact hname _
  | value => exact List.append_ne_nil_of_left_ne_nil (hname _) _

theorem isPlain_of_saysOption (told : SaysOption scope argument said waiting) :
    isPlain argument = false := by
  cases told with
  | letters text given => exact isPlain_eq_false_iff.mpr ⟨_, given, text⟩
  | name text => exact isPlain_eq_false_iff.mpr ⟨_, List.cons_ne_nil _ _, text⟩

theorem ne_dashes_of_saysOption (told : SaysOption scope argument said waiting) :
    argument ≠ "--" := by
  rintro rfl
  have hdashes : "--".toList = ['-', '-'] := by decide
  cases told with
  | letters text given told =>
    obtain rfl := (List.cons.inj (hdashes.symm.trans text)).2
    exact not_saysLetters_dash told
  | name text told =>
    obtain rfl := (List.cons.inj (List.cons.inj (hdashes.symm.trans text)).2).2
    exact ne_nil_of_saysName told rfl

/-- Reading arguments sets what they say. -/
theorem read_eq_ok_iff : s.read command arguments = .ok s' ↔
    ∃ said, Says command arguments said ∧ said.foldlM take s = .ok s' := by
  constructor
  · intro h
    -- An option and the value it waits for are read in one step, so the induction is the reader's.
    fun_induction read command s arguments with
    | case1 s =>
      cases h
      exact ⟨[], .done, rfl⟩
    | case2 s arguments => exact ⟨_, .literally arguments, foldlM_place_eq s arguments ▸ h⟩
    | case3 s argument arguments _ plain m placed ih =>
      obtain ⟨said, told, taken⟩ := ih h
      exact ⟨_, .expression plain told, foldlM_cons_eq_ok_iff.mpr ⟨m, placed, taken⟩⟩
    | case6 s argument arguments _ dashed m optional ih =>
      obtain ⟨front, toldFront, takenFront⟩ :=
        (option_eq_ok_iff (by simpa using dashed)).mp optional
      obtain ⟨said, told, taken⟩ := ih h
      exact ⟨_, .option toldFront told, foldlM_append_eq_ok_iff.mpr ⟨m, takenFront, taken⟩⟩
    | case8 s argument _ dashed m flag optional text arguments plain n stored ih =>
      obtain ⟨front, toldFront, takenFront⟩ :=
        (option_eq_ok_iff (by simpa using dashed)).mp optional
      obtain ⟨said, told, taken⟩ := ih h
      exact ⟨_, .value toldFront plain told, foldlM_append_eq_ok_iff.mpr
        ⟨m, takenFront, foldlM_cons_eq_ok_iff.mpr ⟨n, stored, taken⟩⟩⟩
    | case4 | case5 | case7 | case9 | case10 => cases h
  · rintro ⟨said, told, taken⟩
    induction told generalizing s with
    | done =>
      cases taken
      rfl
    | literally arguments => rwa [read, if_pos rfl, foldlM_place_eq]
    | @expression argument _ _ plain behind ih =>
      obtain ⟨m, placed, taken⟩ := foldlM_cons_eq_ok_iff.mp taken
      have hdashes : argument ≠ "--" := by
        rintro rfl
        exact absurd plain (by decide)
      rw [take] at placed
      simp only [read, hdashes, if_false, plain, if_true, placed]
      exact ih taken
    | option told behind ih =>
      obtain ⟨m, takenFront, taken⟩ := foldlM_append_eq_ok_iff.mp taken
      have dashed := isPlain_of_saysOption told
      have optional := (option_eq_ok_iff dashed).mpr ⟨_, told, takenFront⟩
      simp only [read, ne_dashes_of_saysOption told, if_false, dashed, optional]
      exact ih taken
    | value told plain behind ih =>
      obtain ⟨m, takenFront, taken⟩ := foldlM_append_eq_ok_iff.mp taken
      obtain ⟨n, stored, taken⟩ := foldlM_cons_eq_ok_iff.mp taken
      have dashed := isPlain_of_saysOption told
      have optional := (option_eq_ok_iff dashed).mpr ⟨_, told, takenFront⟩
      rw [take] at stored
      simp only [read, ne_dashes_of_saysOption told, if_false, dashed, optional, plain, if_true,
        stored]
      exact ih taken

end Settings

def Command.Requests (command : Command) (verbose : Bool) (said : List Said) (r : Request) : Prop :=
  ∃ s origin, said.foldlM Settings.take .none = .ok s ∧ s.origin? = some origin ∧
    r = ⟨verbose || s.verbose, origin, command.action s⟩

section Requests

variable {argument : String} {arguments : List String} {said : List Said} {r : Request}

/-- What is to be followed by a value may stand in its place and takes one. -/
theorem waits_of_saysOption {scope : Option Command} {flag : Flag}
    (told : SaysOption scope argument said (some flag)) :
    flag.allowed scope = true ∧ flag.takesValue = true := by
  cases told with
  | letters text given told =>
    clear text given
    generalize hflag : some flag = waiting at told
    induction told with
    | done | value => cases hflag
    | mark _ _ _ _ ih => exact ih hflag
    | waiting allowed _ takes =>
      cases hflag
      exact ⟨allowed, takes⟩
  | name _ told =>
    cases told with
    | waiting allowed takes => exact ⟨allowed, takes⟩

theorem Command.request_eq_ok_iff {command : Command} {verbose : Bool} :
    command.request verbose arguments = .ok r ↔
      ∃ said, Says command arguments said ∧ command.Requests verbose said r := by
  constructor
  · intro h
    unfold request at h
    split at h
    · cases h
    next s hread =>
    obtain ⟨said, told, taken⟩ := Settings.read_eq_ok_iff.mp hread
    split at h
    · next origin horigin =>
      cases h
      exact ⟨said, told, s, origin, taken, horigin, rfl⟩
    · cases h
  · rintro ⟨said, told, s, origin, taken, horigin, rfl⟩
    simp only [request, Settings.read_eq_ok_iff.mpr ⟨said, told, taken⟩, horigin]

/-- Arguments lead to a request if what they say leads to it. -/
theorem request_eq_ok_iff {s : Settings} : request s arguments = .ok r ↔
    ∃ before command said, Calls arguments before command said ∧
      ∃ m, before.foldlM Settings.take s = .ok m ∧ command.Requests m.verbose said r := by
  constructor
  · intro h
    fun_induction request s arguments with
    | case4 s name arguments _ _ _ command named =>
      obtain rfl := Command.ofName?_eq_some_iff.mp named
      obtain ⟨said, told, requested⟩ := Command.request_eq_ok_iff.mp h
      exact ⟨[], command, said, .command told, s, rfl, requested⟩
    | case7 s argument arguments _ dashed m waiting optional ih =>
      obtain ⟨front, toldFront, takenFront⟩ :=
        (Settings.option_eq_ok_iff (by simpa using dashed)).mp optional
      obtain ⟨before, command, said, calls, n, taken, requested⟩ := ih h
      cases waiting with
      | none =>
        exact ⟨_, command, said, .option toldFront calls, n,
          Settings.foldlM_append_eq_ok_iff.mpr ⟨m, takenFront, taken⟩, requested⟩
      | some flag =>
        obtain ⟨allowed, takes⟩ := waits_of_saysOption toldFront
        exact absurd takes (by simp [Flag.takesValue_of_allowed_none allowed])
    | case1 | case2 | case3 | case5 | case6 => cases h
  · rintro ⟨before, command, said, calls, m, taken, requested⟩
    induction calls generalizing s with
    | @command command arguments said behind =>
      cases taken
      have hdashes : command.name ≠ "--" := by cases command <;> decide
      have hhelp : command.name ≠ "help" := by cases command <;> decide
      simp only [request, hdashes, hhelp, if_false, Command.isPlain_name, if_true,
        Command.ofName?_eq_some_iff.mpr (rfl : command.name = command.name)]
      exact Command.request_eq_ok_iff.mpr ⟨said, behind, requested⟩
    | option told behind ih =>
      obtain ⟨n, takenFront, taken⟩ := Settings.foldlM_append_eq_ok_iff.mp taken
      have dashed := Settings.isPlain_of_saysOption told
      have optional := (Settings.option_eq_ok_iff dashed).mpr ⟨_, told, takenFront⟩
      simp only [request, Settings.ne_dashes_of_saysOption told, if_false, dashed, optional]
      exact ih taken requested

end Requests
end Formula.CommandLine

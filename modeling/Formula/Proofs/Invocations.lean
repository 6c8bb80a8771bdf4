import Mathlib.Data.List.Forall2
import Formula.CommandLine.Run
import Formula.Proofs.CommandLines

/-! Well-formed command lines. What is said is accepted if every item of it fits behind those in
front of it: options and expressions are given once, bindings as often as one likes. The settings
are read off the items, and with them the source and the bindings of a run. -/
namespace Formula.CommandLine

def values (flag : Flag) (said : List Said) : List String :=
  said.filterMap fun
    | .value other text => if other = flag then some text else none
    | _ => none

def expressions (said : List Said) : List String :=
  said.filterMap fun
    | .expression text => some text
    | _ => none

/-- A pair is split at its first equals sign. What is behind that is read as JSON, and stands for
itself if it is no JSON. -/
inductive Binds : String → String × Json → Prop where
  | json {name raw : String} {j : Json} (first : '=' ∉ name.toList)
      (read : Json.parse? raw = some j) : Binds (name ++ "=" ++ raw) (name, j)
  | text {name raw : String} (first : '=' ∉ name.toList) (unread : Json.parse? raw = none) :
      Binds (name ++ "=" ++ raw) (name, .string raw)

inductive Said.Fits (front : List Said) : Said → Prop where
  | verbose (new : .mark .verbose ∉ front) : Fits front (.mark .verbose)
  | json (new : .mark .json ∉ front) : Fits front (.mark .json)
  | file {path : String} (new : values .file front = []) (given : path ≠ "") :
      Fits front (.value .file path)
  | params {text : String} (new : values .params front = []) : Fits front (.value .params text)
  | param {text : String} {pair : String × Json} (binds : Binds text pair) :
      Fits front (.value .param text)
  | expression {text : String} (new : expressions front = []) : Fits front (.expression text)

def Proper (said : List Said) : Prop :=
  ∀ front item behind, said = front ++ item :: behind → item.Fits front

def Settings.of (said : List Said) : Settings where
  verbose := .mark .verbose ∈ said
  expression := (expressions said).head?
  file := (values .file said).head?
  params := (values .param said).filterMap binding?
  members := (values .params said).head?
  json := .mark .json ∈ said

inductive Gives (readFile : String → Option String) (said : List Said) (source : String) :
    Prop where
  | expression (given : expressions said = [source]) (only : values .file said = [])
  | file {path : String} (given : values .file said = [path]) (only : expressions said = [])
      (read : readFile path = some source)

structure Invocation (readFile : String → Option String) (arguments : List String)
    (command : Command) (said : List Said) (source : String) : Prop where
  calls : ∃ before, Calls arguments before command said ∧ Proper before
  proper : Proper said
  gives : Gives readFile said source

section Items

variable {front said : List Said} {item : Said} {flag : Flag}

@[simp] theorem values_append (flag : Flag) (front behind : List Said) :
    values flag (front ++ behind) = values flag front ++ values flag behind :=
  List.filterMap_append

@[simp] theorem expressions_append (front behind : List Said) :
    expressions (front ++ behind) = expressions front ++ expressions behind :=
  List.filterMap_append

@[simp] theorem values_value (flag other : Flag) (text : String) :
    values flag [.value other text] = if other = flag then [text] else [] := by
  by_cases h : other = flag <;> simp [values, h]

@[simp] theorem values_mark (flag other : Flag) : values flag [.mark other] = [] := rfl

@[simp] theorem values_expression (flag : Flag) (text : String) :
    values flag [.expression text] = [] := rfl

@[simp] theorem expressions_value (text : String) : expressions [.value flag text] = [] := rfl

@[simp] theorem expressions_mark (flag : Flag) : expressions [.mark flag] = [] := rfl

@[simp] theorem expressions_expression (text : String) :
    expressions [.expression text] = [text] := rfl

theorem proper_nil : Proper [] := by simp [Proper]

theorem proper_append_singleton : Proper (front ++ [item]) ↔ Proper front ∧ item.Fits front := by
  constructor
  · intro proper
    refine ⟨?_, proper front item [] rfl⟩
    rintro earlier other behind rfl
    exact proper earlier other (behind ++ [item]) (by simp)
  · rintro ⟨proper, fits⟩ earlier other behind hsplit
    rcases behind.eq_nil_or_concat with rfl | ⟨more, last, rfl⟩
    · obtain ⟨rfl, hitem⟩ := List.append_inj' hsplit rfl
      cases hitem
      exact fits
    · have hfront : front = earlier ++ other :: more := by
        rw [List.concat_eq_append, ← List.cons_append, ← List.append_assoc] at hsplit
        exact (List.append_inj' hsplit rfl).1
      exact proper earlier other more hfront

namespace Settings

/-- Splitting a pair gives what it binds. -/
theorem binding?_eq_some_iff {text : String} {pair : String × Json} :
    binding? text = some pair ↔ Binds text pair := by
  constructor
  · intro h
    unfold binding? at h
    split at h
    · cases h
    next c raw hrest =>
    cases h
    have htext : text = String.ofList (text.toList.takeWhile (· ≠ '=')) ++ "=" ++
        String.ofList raw := by
      rw [← String.toList_inj]
      simpa using eq_append_of_dropWhile hrest
    have first : '=' ∉ (String.ofList (text.toList.takeWhile (· ≠ '='))).toList := by
      rw [String.toList_ofList]
      intro hmem
      simpa using List.mem_takeWhile_imp hmem
    generalize String.ofList (text.toList.takeWhile (· ≠ '=')) = name at htext first
    subst htext
    cases read : Json.parse? (String.ofList raw) with
    | some j => exact .json first read
    | none => exact .text first read
  · have hsplit (name raw : String) (first : '=' ∉ name.toList) :
        binding? (name ++ "=" ++ raw) = some (name, (Json.parse? raw).getD (.string raw)) := by
      have hname : ∀ c ∈ name.toList, decide (c ≠ '=') = true := by
        intro c hc
        exact decide_eq_true (ne_of_mem_of_not_mem hc first)
      obtain ⟨hfront, hrest⟩ := takeWhile_append_cons hname (c := '=') (by simp) raw.toList
      have htext : (name ++ "=" ++ raw).toList = name.toList ++ '=' :: raw.toList := by simp
      rw [binding?, htext, hrest, hfront]
      simp
    rintro (⟨first, read⟩ | ⟨first, unread⟩)
    · rw [hsplit _ _ first, read, Option.getD_some]
    · rw [hsplit _ _ first, unread, Option.getD_none]

variable {s : Settings}

/-- Only what fits behind all that has been said can be set. -/
theorem fits_of_take (h : (of front).take item = .ok s) : item.Fits front := by
  cases item with
  | mark flag =>
    cases flag with
    | verbose =>
      by_cases given : Said.mark .verbose ∈ front
      · simp [take, mark, of, given] at h
      · exact .verbose given
    | json =>
      by_cases given : Said.mark .json ∈ front
      · simp [take, mark, of, given] at h
      · exact .json given
    | _ => cases h
  | value flag text =>
    cases flag with
    | file =>
      by_cases new : values .file front = [] ∧ text ≠ ""
      · exact .file new.1 new.2
      · rw [not_and_or, not_not] at new
        rcases new with given | empty
        · simp [take, store, of, given] at h
        · simp [take, store, empty] at h
    | params =>
      by_cases new : values .params front = []
      · exact .params new
      · simp [take, store, of, new] at h
    | param =>
      cases hpair : binding? text with
      | some pair => exact .param (binding?_eq_some_iff.mp hpair)
      | none => simp [take, store, hpair] at h
    | _ => cases h
  | expression text =>
    by_cases new : expressions front = []
    · exact .expression new
    · simp [take, place, of, new] at h

/-- What fits behind all that has been said is set. -/
theorem take_of_fits (fits : item.Fits front) :
    (of front).take item = .ok (of (front ++ [item])) := by
  cases fits with
  | verbose new => simp [take, mark, of, new]
  | json new => simp [take, mark, of, new]
  | file new given => simp [take, store, of, new, given]
  | params new => simp [take, store, of, new]
  | param binds => simp [take, store, of, binding?_eq_some_iff.mpr binds]
  | expression new => simp [take, place, of, new]

/-- What is said can be set if it is proper, and comes to its settings. -/
theorem foldlM_take_eq_ok_iff : said.foldlM take none = .ok s ↔ Proper said ∧ s = of said := by
  -- Whether an item fits depends on all in front of it, so the last item is taken off.
  induction said using List.reverseRecOn generalizing s with
  | nil =>
    have hof : of [] = none := by simp [of, none, values, expressions]
    rw [hof]
    exact ⟨fun h => ⟨proper_nil, by cases h; rfl⟩, fun ⟨_, h⟩ => by rw [h]; rfl⟩
  | append_singleton front item ih =>
    rw [foldlM_append_eq_ok_iff, proper_append_singleton]
    constructor
    · rintro ⟨m, taken, last⟩
      obtain ⟨proper, rfl⟩ := ih.mp taken
      rw [foldlM_singleton_eq_ok_iff] at last
      have fits := fits_of_take last
      exact ⟨⟨proper, fits⟩, Except.ok.inj (last.symm.trans (take_of_fits fits))⟩
    · rintro ⟨⟨proper, fits⟩, rfl⟩
      exact ⟨of front, ih.mpr ⟨proper, rfl⟩, foldlM_singleton_eq_ok_iff.mpr (take_of_fits fits)⟩

end Settings

/-- Of what may be given once there is the first at most. -/
theorem Proper.once (proper : Proper said) :
    values .file said = (values .file said).head?.toList ∧
      values .params said = (values .params said).head?.toList ∧
        expressions said = (expressions said).head?.toList := by
  induction said using List.reverseRecOn with
  | nil => simp [values, expressions]
  | append_singleton front item ih =>
    obtain ⟨proper, fits⟩ := proper_append_singleton.mp proper
    have ih := ih proper
    cases fits with
    | file new | params new | expression new => simpa [new] using ih
    | verbose | json | param => simpa using ih

theorem Proper.binds (proper : Proper said) :
    List.Forall₂ Binds (values .param said) (Settings.of said).params := by
  simp only [Settings.of]
  induction said using List.reverseRecOn with
  | nil => exact .nil
  | append_singleton front item ih =>
    obtain ⟨proper, fits⟩ := proper_append_singleton.mp proper
    have ih := ih proper
    cases fits with
    | param binds =>
      rw [values_append, List.filterMap_append]
      refine List.rel_append ih ?_
      simpa [Settings.binding?_eq_some_iff.mpr binds] using binds
    | _ => simpa using ih

/-- The source is given where the settings have an origin that can be read. -/
theorem Proper.gives_iff {readFile : String → Option String} {source : String}
    (proper : Proper said) : Gives readFile said source ↔
      ∃ origin, (Settings.of said).origin? = some origin ∧ origin.read? readFile = some source := by
  constructor
  · rintro (⟨given, only⟩ | ⟨given, only, read⟩)
    · exact ⟨.text source, by simp [Settings.of, Settings.origin?, given, only], rfl⟩
    · exact ⟨.file _, by simp [Settings.of, Settings.origin?, given, only], read⟩
  · rintro ⟨origin, horigin, read⟩
    obtain ⟨hfile, -, hexpression⟩ := proper.once
    simp only [Settings.origin?, Settings.of] at horigin
    split at horigin
    · next text htext hnone =>
      rw [hnone] at hfile
      rw [htext] at hexpression
      cases horigin
      cases read
      exact .expression hexpression hfile
    · next path hnone hpath =>
      rw [hpath] at hfile
      rw [hnone] at hexpression
      cases horigin
      exact .file hfile hexpression read
    · cases horigin

end Items

section Runs

variable {readFile : String → Option String} {arguments : List String} {command : Command}
  {said : List Said} {source : String}

/-- Arguments are accepted and lead to a source if they are a well-formed command line. -/
theorem exists_request_iff :
    (∃ r, request .none arguments = .ok r ∧ r.origin.read? readFile = some source) ↔
      ∃ command said, Invocation readFile arguments command said source := by
  simp only [request_eq_ok_iff, Command.Requests, Settings.foldlM_take_eq_ok_iff]
  constructor
  · rintro ⟨r, ⟨before, command, said, calls, m, ⟨properBefore, -⟩, s, origin, ⟨proper, rfl⟩,
      horigin, rfl⟩, read⟩
    exact ⟨command, said, ⟨before, calls, properBefore⟩, proper,
      proper.gives_iff.mpr ⟨origin, horigin, read⟩⟩
  · rintro ⟨command, said, ⟨before, calls, properBefore⟩, proper, gives⟩
    obtain ⟨origin, horigin, read⟩ := proper.gives_iff.mp gives
    exact ⟨_, ⟨before, command, said, calls, _, ⟨properBefore, rfl⟩, _, origin, ⟨proper, rfl⟩,
      horigin, rfl⟩, read⟩

/-- A well-formed command line does with its source what its command does under its settings. -/
theorem Invocation.run_eq (h : Invocation readFile arguments command said source)
    (filter : Option String) : ∃ verbosity, run filter readFile arguments =
      (command.action (Settings.of said)).run verbosity source := by
  obtain ⟨⟨before, calls, properBefore⟩, proper, gives⟩ := h
  obtain ⟨origin, horigin, read⟩ := proper.gives_iff.mp gives
  have hbefore := Settings.foldlM_take_eq_ok_iff.mpr ⟨properBefore, rfl⟩
  have hsaid := Settings.foldlM_take_eq_ok_iff.mpr ⟨proper, rfl⟩
  have hrequest := request_eq_ok_iff.mpr
    ⟨before, command, said, calls, _, hbefore, _, origin, hsaid, horigin, rfl⟩
  refine ⟨.ofSettings filter ((Settings.of before).verbose || (Settings.of said).verbose), ?_⟩
  simp only [run, hrequest, Request.run, read]

end Runs
end Formula.CommandLine

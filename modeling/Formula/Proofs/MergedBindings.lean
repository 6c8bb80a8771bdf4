import Formula.Proofs.Invocations
import Formula.Proofs.Substitution

/-! The bindings of a command line: the members of an object, which pairs override wherever they
stand. An evaluation asks for the parameters of names and for nothing else, so its result is the
same under all bindings that hold the same. -/
namespace Formula.CommandLine

def LastOf (pairs : List (String × Json)) (name : String) (j : Json) : Prop :=
  ∃ before behind, pairs = before ++ (name, j) :: behind ∧ name ∉ behind.map Prod.fst

structure Overrides (members pairs : List (String × Json)) (b : Bindings) : Prop where
  pair : ∀ name j, LastOf pairs name j → b.find? name = some (.json j)
  member : ∀ name j, name ∉ pairs.map Prod.fst → LastOf members name j →
    b.find? name = some (.json j)
  unbound : ∀ name, name ∉ pairs.map Prod.fst → name ∉ members.map Prod.fst → b.find? name = none

inductive GivesMembers (said : List Said) : List (String × Json) → Prop where
  | absent (absent : values .params said = []) : GivesMembers said []
  | object {text : String} {members : List (String × Json)} (given : values .params said = [text])
      (read : Json.parse? text = some (.object members)) : GivesMembers said members

def GivesNoObject (said : List Said) : Prop :=
  ∃ text, values .params said = [text] ∧ ∀ members, Json.parse? text ≠ some (.object members)

/-- The bindings of a command line: the members of its object, which its pairs override. -/
def Merged (said : List Said) (b : Bindings) : Prop :=
  ∃ members pairs, GivesMembers said members ∧ List.Forall₂ Binds (values .param said) pairs ∧
    Overrides members pairs b

def evalSettings (said : List Said) : EvalSettings :=
  ⟨(Settings.of said).params, (Settings.of said).members, (Settings.of said).json⟩

section Pairs

variable {b b' : Bindings} {name : String} {members pairs : List (String × Json)} {said : List Said}

theorem exists_lastOf (h : name ∈ pairs.map Prod.fst) : ∃ j, LastOf pairs name j := by
  induction pairs using List.reverseRecOn with
  | nil => simp at h
  | append_singleton front pair ih =>
    obtain ⟨other, j⟩ := pair
    by_cases hname : other = name
    · exact ⟨j, front, [], by rw [hname], by simp⟩
    · obtain ⟨k, before, behind, hfront, hbehind⟩ := ih (by simpa [Ne.symm hname] using h)
      exact ⟨k, before, behind ++ [(other, j)], by simp [hfront], by
        simpa [Ne.symm hname] using hbehind⟩

theorem find?_of_last {before behind : List (String × Parameter)} {p : Parameter}
    (h : b.pairs = before ++ (name, p) :: behind) (last : name ∉ behind.map Prod.fst) :
    b.find? name = some p := by
  have hbehind : behind.reverse.find? (fun pair => pair.1 = name) = none := by
    rw [List.find?_eq_none]
    intro pair hpair
    simpa using fun hname => last (List.mem_map.mpr ⟨pair, List.mem_reverse.mp hpair, hname⟩)
  simp [Bindings.find?, h, hbehind]

theorem find?_of_notMem (h : name ∉ b.pairs.map Prod.fst) : b.find? name = none := by
  have hpairs : b.pairs.reverse.find? (fun pair => pair.1 = name) = none := by
    rw [List.find?_eq_none]
    intro pair hpair
    simpa using fun hname => h (List.mem_map.mpr ⟨pair, List.mem_reverse.mp hpair, hname⟩)
  rw [Bindings.find?, hpairs, Option.map_none]

/-- Pairs that are added to members override them. -/
theorem overrides_append (members pairs : List (String × Json)) : Overrides members pairs
    ((Bindings.ofMembers members).append (pairs.map fun (name, j) => (name, .json j))) := by
  let bind : String × Json → String × Parameter := fun (name, j) => (name, .json j)
  have hnames (xs : List (String × Json)) : (xs.map bind).map Prod.fst = xs.map Prod.fst := by
    rw [List.map_map]
    rfl
  change Overrides members pairs ⟨members.map bind ++ pairs.map bind⟩
  refine ⟨?_, ?_, ?_⟩
  · rintro name j ⟨before, behind, rfl, last⟩
    have hpairs : members.map bind ++ (before ++ (name, j) :: behind).map bind =
        (members ++ before).map bind ++ (name, .json j) :: behind.map bind := by
      simp [bind]
    exact find?_of_last hpairs (by rwa [hnames])
  · rintro name j absent ⟨before, behind, rfl, last⟩
    have hpairs : (before ++ (name, j) :: behind).map bind ++ pairs.map bind =
        before.map bind ++ (name, .json j) :: (behind ++ pairs).map bind := by
      simp [bind]
    refine find?_of_last hpairs ?_
    rw [hnames, List.map_append, List.mem_append]
    exact not_or.mpr ⟨last, absent⟩
  · intro name absent absentMember
    refine find?_of_notMem ?_
    rw [List.map_append, hnames, hnames, List.mem_append]
    exact not_or.mpr ⟨absentMember, absent⟩

theorem Overrides.find?_eq (h : Overrides members pairs b) (h' : Overrides members pairs b')
    (name : String) : b.find? name = b'.find? name := by
  by_cases hpair : name ∈ pairs.map Prod.fst
  · obtain ⟨j, hj⟩ := exists_lastOf hpair
    rw [h.pair name j hj, h'.pair name j hj]
  by_cases hmember : name ∈ members.map Prod.fst
  · obtain ⟨j, hj⟩ := exists_lastOf hmember
    rw [h.member name j hpair hj, h'.member name j hpair hj]
  · rw [h.unbound name hpair hmember, h'.unbound name hpair hmember]

theorem GivesMembers.unique {members' : List (String × Json)} (h : GivesMembers said members)
    (h' : GivesMembers said members') : members = members' := by
  cases h with
  | absent absent =>
    cases h' with
    | absent => rfl
    | object given => cases absent.symm.trans given
  | object given read =>
    cases h' with
    | absent absent => cases given.symm.trans absent
    | object given' read' =>
      cases given.symm.trans given'
      cases read.symm.trans read'
      rfl

theorem binds_unique {texts : List String} {pairs' : List (String × Json)}
    (h : List.Forall₂ Binds texts pairs) (h' : List.Forall₂ Binds texts pairs') :
    pairs = pairs' := by
  induction h generalizing pairs' with
  | nil =>
    cases h'
    rfl
  | cons binds _ ih =>
    cases h' with
    | cons binds' rest =>
      rw [← Settings.binding?_eq_some_iff] at binds binds'
      rw [ih rest, Option.some.inj (binds.symm.trans binds')]

/-- There is one way of merging what is said. -/
theorem Merged.find?_eq (h : Merged said b) (h' : Merged said b') (name : String) :
    b.find? name = b'.find? name := by
  obtain ⟨members, pairs, gives, binds, overrides⟩ := h
  obtain ⟨members', pairs', gives', binds', overrides'⟩ := h'
  obtain rfl := gives.unique gives'
  obtain rfl := binds_unique binds binds'
  exact overrides.find?_eq overrides' name

theorem parseObject?_eq_some_iff {text : String} :
    Json.parseObject? text = some members ↔ Json.parse? text = some (.object members) := by
  unfold Json.parseObject?
  split
  · next h => simp [h]
  · next other =>
    constructor
    · nofun
    · exact fun h => absurd h (other members)

/-- What is said gives bindings, unless the object that is given is none. -/
theorem bindings?_cases (proper : Proper said) :
    ((evalSettings said).bindings? = none ∧ GivesNoObject said) ∨
      ∃ b, (evalSettings said).bindings? = some b ∧ Merged said b := by
  have hgiven := proper.once.2.1
  have hbinds := proper.binds
  cases hhead : (values .params said).head? with
  | none =>
    rw [hhead] at hgiven
    have hmembers : (evalSettings said).members = none := hhead
    refine .inr ⟨(Bindings.ofMembers []).append _, ?_, [], _, .absent hgiven, hbinds,
      overrides_append _ _⟩
    simp only [EvalSettings.bindings?, hmembers]
    rfl
  | some text =>
    rw [hhead] at hgiven
    have hmembers : (evalSettings said).members = some text := hhead
    cases hobject : Json.parseObject? text with
    | none =>
      refine .inl ⟨by simp [EvalSettings.bindings?, hmembers, hobject], text, hgiven, ?_⟩
      intro members hread
      cases hobject.symm.trans (parseObject?_eq_some_iff.mpr hread)
    | some members =>
      refine .inr ⟨(Bindings.ofMembers members).append _, ?_, members, _,
        .object hgiven (parseObject?_eq_some_iff.mp hobject), hbinds, overrides_append _ _⟩
      simp only [EvalSettings.bindings?, hmembers, hobject]
      rfl

/-- An evaluation asks for the parameters of names and for nothing else. -/
theorem eval_congr (h : ∀ name, b.find? name = b'.find? name) (e : Expr) :
    e.eval b = e.eval b' := by
  have hlookup : b.lookup = b'.lookup := funext fun name => congrArg _ (h name)
  rw [e.eval_eq_evalFrom, e.eval_eq_evalFrom, hlookup]

end Pairs
end Formula.CommandLine

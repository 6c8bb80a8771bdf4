import Formula.Proofs.Planning
import Mathlib.Logic.Relation

/-! Planning one step at a time. A planner moves its cursor by single tokens, to and fro, and keeps
the calls that wait. It comes to what the plan of its tokens comes to, and gives back a token only if
the running call has just taken it. -/
namespace Formula

/-- A call that waits for the one it has made: a level for its first operand or for what is behind
its operator, a sign or a group for what is behind it, and the plan of all tokens for their
expression. -/
inductive Frame where
  | first (level : Level)
  | second (symbol : Symbol) (left : Expr)
  | signed (sign : Sign)
  | group
  | whole

inductive Task where
  | plans (level : Level)
  /-- Takes the first token of an operand. -/
  | reads
  /-- Plans an operand whose first token it has taken. -/
  | begins (t : Token)
  /-- Takes the token behind the first operand of a level. -/
  | looks (level : Level) (left : Expr)
  /-- Goes on behind the first operand, with the token there taken. -/
  | meets (level : Level) (left : Expr) (t : Token)
  /-- Takes the token behind the inside of a group. -/
  | closes (inside : Expr)
  /-- Takes the token behind the whole expression. -/
  | ends (e : Expr)
  /-- Gives a token back and then returns. -/
  | restores (t : Token) (e : Expr)
  | returns (outcome : Except PlanError Expr)

/-- A token that has been taken and may have to be given back. -/
def Task.held? : Task → Option Token
  | .begins t | .meets _ _ t | .restores t _ => some t
  | _ => none

/-- What a call does with the result it has waited for. An error is handed on. -/
def Frame.resume : Frame → Except PlanError Expr → Task
  | _, .error e => .returns (.error e)
  | .first level, .ok e => .looks level e
  | .second symbol left, .ok e => .returns (.ok (.operation symbol left e))
  | .signed sign, .ok e => .returns (.ok (e.withSign sign))
  | .group, .ok e => .closes e
  | .whole, .ok e => .ends e

theorem Frame.held?_resume (frame : Frame) (outcome : Except PlanError Expr) :
    (frame.resume outcome).held? = none := by
  cases outcome <;> cases frame <;> rfl

theorem Frame.resume_second (symbol : Symbol) (left : Expr) (outcome : Except PlanError Expr) :
    (Frame.second symbol left).resume outcome = .returns (outcome.map (.operation symbol left)) := by
  cases outcome <;> rfl

theorem Frame.resume_signed (sign : Sign) (outcome : Except PlanError Expr) :
    (Frame.signed sign).resume outcome = .returns (outcome.map (Expr.withSign sign)) := by
  cases outcome <;> rfl

structure Planner where
  cursor : Cursor
  waiting : List Frame
  task : Task

namespace Planner

def take (s : Planner) (missing : Task) (met : Token → Task) : Planner :=
  { s with cursor := s.cursor.advance, task := s.cursor.current?.elim missing met }

def call (s : Planner) (frame : Frame) (task : Task) : Planner :=
  { s with waiting := frame :: s.waiting, task := task }

def begin (s : Planner) (t : Token) : Planner :=
  if t.kind = .openParen then s.call .group (.plans .lowest)
  else match t.leaf?, t.kind.sign? with
    | some e, _ => { s with task := .returns (.ok e) }
    | none, some sign => s.call (.signed sign) (.plans .multiplicative)
    | none, none =>
      if t.kind = .not then { s with task := .restores t .empty }
      else { s with task := .returns (.error (.unplannable t)) }

def step? (s : Planner) : Option Planner :=
  match s.task with
  | .plans level =>
    match level.next? with
    | some tighter => some (s.call (.first level) (.plans tighter))
    | none => some (s.call (.first level) .reads)
  | .reads => some (s.take (.returns (.ok .empty)) .begins)
  | .begins t => some (s.begin t)
  | .looks level left => some (s.take (.returns (.ok left)) (.meets level left))
  | .meets level left t =>
    match level.symbol? t.kind with
    | some symbol => some (s.call (.second symbol left) (.plans level))
    | none => some { s with task := .restores t left }
  | .closes inside =>
    some (s.take (.returns (.error (.missingParen .eof ⟨s.cursor.sourceLength, 0⟩))) fun t =>
      .returns (if t.kind = .closeParen then .ok (.operation .group .empty inside)
        else .error (.missingParen t.kind t.span)))
  | .ends e =>
    some (s.take (.returns (.ok e)) fun t =>
      .returns (if t.kind = .eof then .ok e else .error (.unplannable t)))
  | .restores _ e => some { s with cursor := s.cursor.rewind, task := .returns (.ok e) }
  | .returns outcome =>
    match s.waiting with
    | [] => none
    | frame :: waiting => some { s with waiting := waiting, task := frame.resume outcome }

/-- One planner leads to another while the given calls wait. -/
def Runs (calls : List Frame) : Planner → Planner → Prop :=
  Relation.ReflTransGen fun s s' => s.step? = some s' ∧ calls <:+ s'.waiting

def ofCursor (c : Cursor) : Planner := ⟨c, [], .plans .lowest⟩

def ofAll (c : Cursor) : Planner := ⟨c, [.whole], .plans .lowest⟩

section Steps

variable {s s' start : Planner} {t : Token} {calls : List Frame}

structure Takes (s s' : Planner) : Prop where
  cursor : s'.cursor = s.cursor.advance
  waiting : s'.waiting = s.waiting
  held : ∀ t, s'.task.held? = some t → s.cursor.current? = some t
  fresh : ∀ t e, s'.task ≠ .restores t e

structure GivesBack (s s' : Planner) : Prop where
  cursor : s'.cursor = s.cursor.rewind
  waiting : s'.waiting = s.waiting
  held : ∃ t, s.task.held? = some t
  free : s'.task.held? = none

/-- A step that leaves the cursor where it is. It may only keep a token that is already held, and
then for the same call, which has to give it back. -/
structure Stays (s s' : Planner) : Prop where
  cursor : s'.cursor = s.cursor
  kept : ∀ t, s'.task.held? = some t →
    s.task.held? = some t ∧ s'.waiting = s.waiting ∧ (∃ e, s'.task = .restores t e) ∧
      ∀ u e, s.task ≠ .restores u e

theorem stays_of_free (h : s'.cursor = s.cursor) (free : s'.task.held? = none) : s.Stays s' :=
  ⟨h, fun t ht => by simp [free] at ht⟩

theorem stays_restores (held : s.task.held? = some t) (fresh : ∀ u e, s.task ≠ .restores u e)
    (e : Expr) : s.Stays { s with task := .restores t e } := by
  refine ⟨rfl, fun u hu => ?_⟩
  obtain rfl : t = u := by simpa [Task.held?] using hu
  exact ⟨held, rfl, ⟨e, rfl⟩, fresh⟩

theorem takes_take {missing : Task} {met : Token → Task} (hmissing : missing.held? = none)
    (hmet : ∀ t u, (met t).held? = some u → t = u)
    (hfresh : ∀ t e, missing ≠ .restores t e ∧ ∀ u, met u ≠ .restores t e) :
    s.Takes (s.take missing met) := by
  constructor
  · rfl
  · rfl
  · intro t ht
    cases hc : s.cursor.current? with
    | none => simp [take, hc, hmissing] at ht
    | some u =>
      have hu : (met u).held? = some t := by simpa [take, hc] using ht
      rw [hmet u t hu]
  · intro t e
    cases hc : s.cursor.current? with
    | none => simpa [take, hc] using (hfresh t e).1
    | some u => simpa [take, hc] using (hfresh t e).2 u

theorem stays_begin (h : s.task = .begins t) : s.Stays (s.begin t) := by
  unfold begin
  split
  · exact stays_of_free rfl rfl
  · split
    · exact stays_of_free rfl rfl
    · exact stays_of_free rfl rfl
    · split
      · exact stays_restores (by rw [h]; rfl) (by simp [h]) .empty
      · exact stays_of_free rfl rfl

/-- What a step can do to the cursor and to a token that is held. -/
theorem step_cases (h : s.step? = some s') : s.Takes s' ∨ s.GivesBack s' ∨ s.Stays s' := by
  obtain ⟨cursor, waiting, task⟩ := s
  cases task with
  | plans level =>
    simp only [step?] at h
    split at h <;> obtain rfl := Option.some.inj h <;> exact .inr (.inr (stays_of_free rfl rfl))
  | reads | looks | closes | ends =>
    obtain rfl := Option.some.inj h
    exact .inl (takes_take rfl (by simp [Task.held?]) (by simp))
  | begins t =>
    obtain rfl := Option.some.inj h
    exact .inr (.inr (stays_begin rfl))
  | meets level left t =>
    simp only [step?] at h
    split at h <;> obtain rfl := Option.some.inj h
    · exact .inr (.inr (stays_of_free rfl rfl))
    · exact .inr (.inr (stays_restores rfl (by simp) left))
  | restores t e =>
    obtain rfl := Option.some.inj h
    exact .inr (.inl ⟨rfl, rfl, ⟨t, rfl⟩, rfl⟩)
  | returns outcome =>
    simp only [step?] at h
    split at h
    · cases h
    · obtain rfl := Option.some.inj h
      exact .inr (.inr (stays_of_free rfl (Frame.held?_resume _ _)))

/-- The cursor has not been moved in front of a place, and is behind it while a token is held. -/
structure Beyond (base : Nat) (s : Planner) : Prop where
  le : base ≤ s.cursor.index
  held : ∀ t, s.task.held? = some t → base < s.cursor.index

theorem Beyond.of_free (h : s.task.held? = none) : s.Beyond s.cursor.index :=
  ⟨Nat.le_refl _, fun t ht => by simp [h] at ht⟩

theorem Beyond.step {base : Nat} (h : s.Beyond base) (hstep : s.step? = some s') :
    s'.Beyond base := by
  rcases step_cases hstep with takes | gives | stays
  · refine ⟨?_, fun t ht => ?_⟩
    · rw [takes.cursor]
      exact Nat.le_trans h.le s.cursor.index_le_advance
    · rw [takes.cursor, Cursor.index_advance (takes.held t ht)]
      exact Nat.lt_succ_of_le h.le
  · obtain ⟨t, ht⟩ := gives.held
    refine ⟨?_, fun u hu => by simp [gives.free] at hu⟩
    rw [gives.cursor]
    exact Nat.le_sub_one_of_lt (h.held t ht)
  · refine ⟨by rw [stays.cursor]; exact h.le, fun t ht => ?_⟩
    rw [stays.cursor]
    exact h.held t (stays.kept t ht).1

theorem tokens_step (h : s.step? = some s') : s'.cursor.tokens = s.cursor.tokens := by
  rcases step_cases h with takes | gives | stays
  · rw [takes.cursor, Cursor.tokens_advance]
  · rw [gives.cursor, Cursor.tokens_rewind]
  · rw [stays.cursor]

theorem Runs.beyond {base : Nat} (h : Runs calls start s) (hstart : start.Beyond base) :
    s.Beyond base := by
  induction h with
  | refl => exact hstart
  | tail _ hstep ih => exact ih.step hstep.1

theorem Runs.tokens_eq (h : Runs calls start s) : s.cursor.tokens = start.cursor.tokens := by
  induction h with
  | refl => rfl
  | tail _ hstep ih => rw [tokens_step hstep.1, ih]

/-- What a call gives back is the token that it has taken two steps before. -/
theorem Runs.undoes {e : Expr} (h : Runs calls start s) (free : start.task.held? = none)
    (restores : s.task = .restores t e) :
    ∃ before taken, Runs calls start before ∧ before.step? = some taken ∧
      taken.step? = some s ∧ before.waiting = s.waiting ∧ taken.waiting = s.waiting ∧
      before.cursor.current? = some t ∧ taken.task.held? = some t ∧
      taken.cursor = before.cursor.advance ∧ s.cursor = taken.cursor ∧
      s.cursor.rewind = before.cursor ∧ 0 < s.cursor.index := by
  have hheld : s.task.held? = some t := by rw [restores]; rfl
  rcases h.cases_tail with rfl | ⟨taken, hruns, hstep, -⟩
  · simp [free] at hheld
  -- the last step is the one that decides to give the token back
  rcases step_cases hstep with takes | gives | stays
  · exact absurd restores (takes.fresh t e)
  · simp [gives.free] at hheld
  obtain ⟨htaken, hwaiting, -, hnot⟩ := stays.kept t hheld
  rcases hruns.cases_tail with rfl | ⟨before, hruns, hstep', -⟩
  · simp [free] at htaken
  -- the one before it is the one that takes the token
  rcases step_cases hstep' with takes | gives | stays'
  · have hcurrent := takes.held t htaken
    have hadvance : s.cursor = before.cursor.advance := stays.cursor.trans takes.cursor
    refine ⟨before, taken, hruns, hstep', hstep, takes.waiting.symm.trans hwaiting.symm,
      hwaiting.symm, hcurrent, htaken, takes.cursor, stays.cursor, ?_, ?_⟩
    · rw [hadvance, Cursor.rewind_advance hcurrent]
    · rw [hadvance, Cursor.index_advance hcurrent]
      exact Nat.succ_pos _
  · simp [gives.free] at htaken
  · obtain ⟨e', he'⟩ := (stays'.kept t htaken).2.2.1
    exact absurd he' (hnot t e')

end Steps

section Calls

variable {n : Nat} {level : Level} {task : Task} {t : Token} {ts more : List Token} {c : Cursor}
  {calls calls' : List Frame} {s s' s'' : Planner}

theorem Runs.of_step (h : s.step? = some s') (hcalls : calls <:+ s'.waiting) : Runs calls s s' :=
  .single ⟨h, hcalls⟩

theorem Runs.trans (h : Runs calls s s') (h' : Runs calls s' s'') : Runs calls s s'' :=
  Relation.ReflTransGen.trans h h'

theorem Runs.of_suffix (h : Runs calls s s') (hcalls : calls' <:+ calls) : Runs calls' s s' :=
  Relation.ReflTransGen.mono (fun _ _ hstep => ⟨hstep.1, hcalls.trans hstep.2⟩) _ _ h

theorem take_cons (h : t :: more <:+ c.tokens) (missing : Task) (met : Token → Task) :
    (⟨c.leaving (t :: more), calls, task⟩ : Planner).take missing met =
      ⟨c.leaving more, calls, met t⟩ := by
  simp only [take, Cursor.advance_leaving h, Cursor.current?_leaving h]
  rfl

theorem take_nil (missing : Task) (met : Token → Task) :
    (⟨c.leaving [], calls, task⟩ : Planner).take missing met = ⟨c.leaving [], calls, missing⟩ := by
  have h : [] <:+ c.tokens := List.nil_suffix
  simp only [take, Cursor.advance_leaving h, Cursor.current?_leaving h]
  rfl

/-- A call in front of tokens returns with a plan of them, whatever waits for it. -/
def Answers (n : Nat) (task : Task) {ts : List Token} (p : Planned ts) : Prop :=
  ∀ (c : Cursor) (calls : List Frame), c.sourceLength = n → ts <:+ c.tokens →
    Runs calls ⟨c.leaving ts, calls, task⟩ ⟨c.leaving p.rest, calls, .returns p.outcome⟩

theorem Answers.resume {p : Planned ts} (h : Answers n task p) (hn : c.sourceLength = n)
    (hts : ts <:+ c.tokens) (frame : Frame) :
    Runs calls ⟨c.leaving ts, frame :: calls, task⟩
      ⟨c.leaving p.rest, calls, frame.resume p.outcome⟩ :=
  ((h c (frame :: calls) hn hts).of_suffix (List.suffix_cons frame calls)).trans
    (.of_step rfl (List.suffix_refl calls))

/-- A token taken in vain is given back. -/
theorem runs_restores (h : t :: more <:+ c.tokens) (e : Expr) :
    Runs calls ⟨c.leaving more, calls, .restores t e⟩
      ⟨c.leaving (t :: more), calls, .returns (.ok e)⟩ := by
  rw [← Cursor.rewind_leaving h]
  exact .of_step rfl (List.suffix_refl calls)

/-- A level has its first operand planned. -/
theorem runs_first (htighter : ∀ tighter, level.next? = some tighter →
      Answers n (.plans tighter) (planLevel n tighter ts))
    (hoperand : level.next? = none → Answers n .reads (planOperand n ts))
    (hn : c.sourceLength = n) (hts : ts <:+ c.tokens) :
    Runs calls ⟨c.leaving ts, calls, .plans level⟩
      ⟨c.leaving (planFirst n level ts).rest, calls,
        (Frame.first level).resume (planFirst n level ts).outcome⟩ := by
  unfold planFirst
  split
  · next tighter hnext =>
    refine .trans (.of_step ?_ (List.suffix_cons (.first level) calls))
      ((htighter tighter hnext).resume hn hts (.first level))
    simp only [step?, hnext]
    rfl
  · next hnext =>
    refine .trans (.of_step ?_ (List.suffix_cons (.first level) calls))
      ((hoperand hnext).resume hn hts (.first level))
    simp only [step?, hnext]
    rfl

/-- Behind its first operand, a level goes on with its operator or gives back the token there. -/
theorem runs_second (hsecond : ∀ t more, (planFirst n level ts).rest = t :: more →
      Answers n (.plans level) (planLevel n level more))
    (hn : c.sourceLength = n) (hts : ts <:+ c.tokens) :
    Runs calls ⟨c.leaving (planFirst n level ts).rest, calls,
        (Frame.first level).resume (planFirst n level ts).outcome⟩
      ⟨c.leaving (planLevel n level ts).rest, calls,
        .returns (planLevel n level ts).outcome⟩ := by
  cases houtcome : (planFirst n level ts).outcome with
  | error e =>
    have stop : planLevel n level ts = planFirst n level ts :=
      planLevel_eq_planFirst fun _ _ _ h => by cases houtcome.symm.trans h.1
    rw [stop, houtcome]
    exact .refl
  | ok e =>
    cases hrest : (planFirst n level ts).rest with
    | nil =>
      have stop : planLevel n level ts = planFirst n level ts :=
        planLevel_eq_planFirst fun _ _ _ h => by cases hrest.symm.trans h.2
      rw [stop, houtcome, hrest]
      exact .of_step (congrArg some (take_nil _ _)) (List.suffix_refl calls)
    | cons t more =>
      have hsuffix : t :: more <:+ c.tokens := hrest ▸ (planFirst n level ts).suffix.trans hts
      have meets : Runs calls ⟨c.leaving (t :: more), calls, .looks level e⟩
          ⟨c.leaving more, calls, .meets level e t⟩ :=
        .of_step (congrArg some (take_cons hsuffix _ _)) (List.suffix_refl calls)
      refine meets.trans ?_
      cases hsymbol : level.symbol? t.kind with
      | none =>
        have stop : planLevel n level ts = planFirst n level ts :=
          planLevel_eq_planFirst fun e' u us h => by
            obtain ⟨rfl, rfl⟩ := List.cons.inj (hrest.symm.trans h.2)
            exact hsymbol
        rw [stop, houtcome, hrest]
        refine .trans (.of_step ?_ (List.suffix_refl calls)) (runs_restores hsuffix e)
        simp only [step?, hsymbol]
      | some symbol =>
        have second : Runs calls ⟨c.leaving more, .second symbol e :: calls, .plans level⟩
            ⟨c.leaving (planLevel n level more).rest, calls,
              (Frame.second symbol e).resume (planLevel n level more).outcome⟩ :=
          (hsecond t more hrest).resume hn ((List.suffix_cons t more).trans hsuffix) _
        obtain ⟨hjoined, hleft⟩ := planLevel_of_operator ⟨houtcome, hrest⟩ hsymbol
        rw [hjoined, hleft, ← Frame.resume_second]
        refine .trans (.of_step ?_ (List.suffix_cons (.second symbol e) calls)) second
        simp only [step?, hsymbol]
        rfl

/-- Behind the inside of a group, the group is closed. -/
theorem runs_closes (hn : c.sourceLength = n) (p : Planned more) (h : p.rest <:+ c.tokens) :
    Runs calls ⟨c.leaving p.rest, calls, Frame.group.resume p.outcome⟩
      ⟨c.leaving (p.close n).rest, calls, .returns (p.close n).outcome⟩ := by
  obtain ⟨outcome, rest, hsuffix⟩ := p
  subst hn
  cases outcome with
  | error e => exact .refl
  | ok e =>
    cases rest with
    | nil => exact .of_step (congrArg some (take_nil _ _)) (List.suffix_refl calls)
    | cons t more => exact .of_step (congrArg some (take_cons h _ _)) (List.suffix_refl calls)

theorem answers_reads_of (shorter : ∀ us level, us.length < ts.length →
      Answers n (.plans level) (planLevel n level us)) : Answers n .reads (planOperand n ts) := by
  intro c calls hn hts
  cases ts with
  | nil =>
    rw [planOperand]
    exact .of_step (congrArg some (take_nil _ _)) (List.suffix_refl calls)
  | cons t more =>
    have hmore : more <:+ c.tokens := (List.suffix_cons t more).trans hts
    have hlt : more.length < (t :: more).length := Nat.lt_succ_self _
    have reads : Runs calls ⟨c.leaving (t :: more), calls, .reads⟩
        ⟨c.leaving more, calls, .begins t⟩ :=
      .of_step (congrArg some (take_cons hts _ _)) (List.suffix_refl calls)
    have begins {waiting : List Frame} {task : Task}
        (h : begin ⟨c.leaving more, calls, .begins t⟩ t = ⟨c.leaving more, waiting, task⟩)
        (hcalls : calls <:+ waiting) : Runs calls ⟨c.leaving more, calls, .begins t⟩
          ⟨c.leaving more, waiting, task⟩ :=
      .of_step (congrArg some h) hcalls
    refine reads.trans ?_
    rw [planOperand]
    split
    · next hopen =>
      have inside : Runs calls ⟨c.leaving more, .group :: calls, .plans .lowest⟩
          ⟨c.leaving (planLevel n .lowest more).rest, calls,
            Frame.group.resume (planLevel n .lowest more).outcome⟩ :=
        (shorter more .lowest hlt).resume hn hmore .group
      have hrest := (planLevel n .lowest more).suffix.trans hmore
      exact .trans (begins (if_pos hopen) (List.suffix_cons .group calls))
        (inside.trans (runs_closes hn _ hrest))
    · next hopen =>
      split
      · next e _ hleaf =>
        apply begins _ (List.suffix_refl calls)
        simp only [begin, if_neg hopen, hleaf]
      · next sign hleaf hsign =>
        have operand : Runs calls ⟨c.leaving more, .signed sign :: calls, .plans .multiplicative⟩
            ⟨c.leaving (planLevel n .multiplicative more).rest, calls,
              (Frame.signed sign).resume (planLevel n .multiplicative more).outcome⟩ :=
          (shorter more .multiplicative hlt).resume hn hmore (.signed sign)
        rw [Frame.resume_signed] at operand
        refine .trans (begins ?_ (List.suffix_cons (.signed sign) calls)) operand
        simp only [begin, if_neg hopen, hleaf, hsign]
        rfl
      · next hleaf hsign =>
        split
        · next hnot =>
          refine .trans (begins ?_ (List.suffix_refl calls)) (runs_restores hts .empty)
          simp only [begin, if_neg hopen, hleaf, hsign, if_pos hnot]
        · next hnot =>
          apply begins _ (List.suffix_refl calls)
          simp only [begin, if_neg hopen, hleaf, hsign, if_neg hnot]

/-- A call of a level comes to the plan of the tokens behind the cursor. -/
theorem answers_plans (n : Nat) (level : Level) (ts : List Token) :
    Answers n (.plans level) (planLevel n level ts) :=
  plan_induction (n := n) (P := fun level ts => Answers n (.plans level) (planLevel n level ts))
    (Q := fun ts => Answers n .reads (planOperand n ts))
    (fun _ _ htighter hoperand hsecond _ _ hn hts =>
      (runs_first htighter hoperand hn hts).trans (runs_second hsecond hn hts))
    (fun _ shorter => answers_reads_of shorter) level ts

theorem runs_plans (c : Cursor) (calls : List Frame) (level : Level) :
    Runs calls ⟨c, calls, .plans level⟩
      ⟨c.leaving (planLevel c.sourceLength level c.rest).rest, calls,
        .returns (planLevel c.sourceLength level c.rest).outcome⟩ := by
  have h := answers_plans c.sourceLength level c.rest c calls rfl c.rest_suffix
  rwa [Cursor.leaving_rest] at h

theorem runs_build (c : Cursor) :
    Runs [] (ofCursor c) ⟨c.build.2, [], .returns c.build.1⟩ := runs_plans c [] .lowest

theorem runs_buildAll (c : Cursor) :
    Runs [] (ofAll c) ⟨c.buildAll.2, [], .returns c.buildAll.1⟩ := by
  have inside : Runs [] (ofAll c) ⟨c.build.2, [.whole], .returns c.build.1⟩ :=
    (runs_plans c [.whole] .lowest).of_suffix List.nil_suffix
  have resumed : Runs [] ⟨c.build.2, [.whole], .returns c.build.1⟩
      ⟨c.build.2, [], Frame.whole.resume c.build.1⟩ := .of_step rfl List.nil_suffix
  refine inside.trans (resumed.trans ?_)
  unfold Cursor.buildAll
  rcases c.build with ⟨_ | e, behind⟩
  · exact .refl
  · refine .of_step ?_ List.nil_suffix
    cases hc : behind.current? with
    | none => simp only [Frame.resume, step?, take, hc, Cursor.advance_of_current?_eq_none hc,
        Option.elim]
    | some t => simp only [Frame.resume, step?, take, hc, Option.elim]

theorem Runs.acc (h : Runs calls s s') (halts : s'.step? = none) :
    Acc (fun later earlier : Planner => earlier.step? = some later) s := by
  induction h using Relation.ReflTransGen.head_induction_on with
  | refl => exact .intro _ fun later hlater => by cases halts.symm.trans hlater
  | head hstep _ ih =>
    refine .intro _ fun later hlater => ?_
    obtain rfl := Option.some.inj (hstep.1.symm.trans hlater)
    exact ih

/-- A planner that terminates with a result. Its cursor keeps to the tokens behind the start, what a
call gives back is what it has just taken, and a call that plans a level returns with the cursor
where it was or further on, be it with an expression or with an error. -/
structure Orderly (start : Planner) (result : Except PlanError Expr × Cursor) : Prop where
  terminates : Acc (fun later earlier : Planner => earlier.step? = some later) start
  returns : Runs [] start ⟨result.2, [], .returns result.1⟩
  tokens : ∀ s, Runs [] start s → s.cursor.tokens = start.cursor.tokens
  within : ∀ s, Runs [] start s →
    start.cursor.index ≤ s.cursor.index ∧ s.cursor.index ≤ start.cursor.tokens.length
  undoes : ∀ s t e, Runs [] start s → s.task = .restores t e →
    ∃ before taken, Runs [] start before ∧ before.step? = some taken ∧ taken.step? = some s ∧
      before.waiting = s.waiting ∧ taken.waiting = s.waiting ∧
      before.cursor.current? = some t ∧ taken.task.held? = some t ∧
      taken.cursor = before.cursor.advance ∧ s.cursor = taken.cursor ∧
      s.cursor.rewind = before.cursor ∧ 0 < s.cursor.index
  calls : ∀ s level, Runs [] start s → s.task = .plans level →
    (∃ behind outcome, Runs s.waiting s ⟨behind, s.waiting, .returns outcome⟩) ∧
      ∀ behind outcome, Runs s.waiting s ⟨behind, s.waiting, .returns outcome⟩ →
        s.cursor.index ≤ behind.index

theorem orderly_of_runs {start : Planner} {result : Except PlanError Expr × Cursor}
    (h : Runs [] start ⟨result.2, [], .returns result.1⟩) (free : start.task.held? = none) :
    start.Orderly result where
  terminates := h.acc rfl
  returns := h
  tokens _ hruns := hruns.tokens_eq
  within s hruns := by
    have hbeyond : start.Beyond start.cursor.index := .of_free free
    refine ⟨(hruns.beyond hbeyond).le, ?_⟩
    rw [← hruns.tokens_eq]
    exact s.cursor.index_le
  undoes s t e hruns htask := hruns.undoes free htask
  calls s level _ htask := by
    constructor
    · have hplans := runs_plans s.cursor s.waiting level
      rw [← htask] at hplans
      exact ⟨_, _, hplans⟩
    · intro behind outcome hruns
      have hbeyond : s.Beyond s.cursor.index := .of_free (by rw [htask]; rfl)
      exact (hruns.beyond hbeyond).le

end Calls
end Planner

/-- Planning terminates on any tokens and from any place in them. -/
theorem planners_orderly (c : Cursor) :
    (Planner.ofCursor c).Orderly c.build ∧ (Planner.ofAll c).Orderly c.buildAll :=
  ⟨Planner.orderly_of_runs (Planner.runs_build c) rfl,
    Planner.orderly_of_runs (Planner.runs_buildAll c) rfl⟩

end Formula

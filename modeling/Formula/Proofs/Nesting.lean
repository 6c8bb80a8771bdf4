import Mathlib.Data.List.Infix
import Mathlib.Data.Nat.Find
import Mathlib.Order.Basic
import Mathlib.Tactic.Push
import Formula.Token.Grammar

/-! Parentheses of a token sequence: counts over what has been read, the first parenthesis that
closes nothing, and the parenthesis that closes the one in front. -/
namespace Formula

structure FirstAt (P : List Token → Token → Prop) (ts before : List Token) (t : Token) : Prop where
  here : before ++ [t] <+: ts
  holds : P before t
  earliest : ∀ us u, us ++ [u] <+: ts → P us u → before.length ≤ us.length

def Nowhere (P : List Token → Token → Prop) (ts : List Token) : Prop :=
  ∀ us u, us ++ [u] <+: ts → ¬ P us u

/-- A closing parenthesis with more closing than opening ones up to and with it. -/
def Stray (before : List Token) (t : Token) : Prop :=
  t.kind = .closeParen ∧
    countKind .openParen (before ++ [t]) < countKind .closeParen (before ++ [t])

/-- As many parentheses close as open, and nowhere have more been closed than opened. -/
structure Nested (ts : List Token) : Prop where
  balanced : countKind .openParen ts = countKind .closeParen ts
  closed_le : ∀ us, us <+: ts → countKind .closeParen us ≤ countKind .openParen us

instance (ts : List Token) : Decidable (Nested ts) :=
  decidable_of_iff (countKind .openParen ts = countKind .closeParen ts ∧
      ∀ us ∈ ts.inits, countKind .closeParen us ≤ countKind .openParen us)
    ⟨fun h => ⟨h.1, fun us hus => h.2 us ((List.mem_inits us ts).mpr hus)⟩,
      fun h => ⟨h.balanced, fun us hus => h.closed_le us ((List.mem_inits us ts).mp hus)⟩⟩

@[simp] theorem countKind_nil (k : Kind) : countKind k [] = 0 := rfl

@[simp] theorem countKind_cons (k : Kind) (t : Token) (ts : List Token) :
    countKind k (t :: ts) = countKind k ts + if t.kind = k then 1 else 0 := by
  simp [countKind, List.countP_cons]

@[simp] theorem countKind_append (k : Kind) (ts us : List Token) :
    countKind k (ts ++ us) = countKind k ts + countKind k us := by
  simp [countKind]

namespace FirstAt

variable {P : List Token → Token → Prop} {ts before us : List Token} {t u : Token}

/-- What holds somewhere holds somewhere for the first time. -/
theorem exists_of_prefix (here : us ++ [u] <+: ts) (holds : P us u) :
    ∃ before t, FirstAt P ts before t := by
  classical
  have hex : ∃ n us u, us.length = n ∧ us ++ [u] <+: ts ∧ P us u := ⟨_, us, u, rfl, here, holds⟩
  obtain ⟨before, t, hlength, hinit, hP⟩ := Nat.find_spec hex
  refine ⟨before, t, hinit, hP, fun vs v hvs hv => ?_⟩
  rw [hlength]
  exact Nat.find_min' hex ⟨vs, v, rfl, hvs, hv⟩

theorem exists_of_not_nowhere (h : ¬ Nowhere P ts) : ∃ before t, FirstAt P ts before t := by
  unfold Nowhere at h
  push Not at h
  obtain ⟨us, u, here, holds⟩ := h
  exact exists_of_prefix here holds

/-- There is one place at most where a property holds for the first time. -/
theorem unique (h : FirstAt P ts before t) (h' : FirstAt P ts us u) : before = us ∧ t = u := by
  have hlength : before.length = us.length :=
    le_antisymm (h.earliest us u h'.here h'.holds) (h'.earliest before t h.here h.holds)
  have heq : before ++ [t] = us ++ [u] := by
    apply List.IsPrefix.eq_of_length_le
    · exact List.prefix_of_prefix_length_le h.here h'.here (by simp [hlength])
    · simp [hlength]
  exact List.append_singleton_inj.mp heq

end FirstAt

/-- Where more has been closed than opened, a stray parenthesis has been read. -/
theorem exists_stray {us : List Token}
    (h : countKind .openParen us < countKind .closeParen us) :
    ∃ before t, before ++ [t] <+: us ∧ Stray before t := by
  induction us using List.reverseRecOn with
  | nil => simp at h
  | append_singleton us u ih =>
    by_cases hus : countKind .openParen us < countKind .closeParen us
    · obtain ⟨before, t, hinit, ht⟩ := ih hus
      exact ⟨before, t, hinit.trans (List.prefix_append us [u]), ht⟩
    · refine ⟨us, u, List.prefix_rfl, ?_, h⟩
      by_contra hu
      have : countKind .openParen us ≤ countKind .openParen (us ++ [u]) := by simp
      simp only [countKind_append, countKind_cons, countKind_nil, hu, if_false] at h this
      omega

/-- Up to the first stray parenthesis, parentheses are nested. -/
theorem FirstAt.nested {ts before : List Token} {t : Token} (h : FirstAt Stray ts before t) :
    Nested before := by
  have hle : ∀ us, us <+: before → countKind .closeParen us ≤ countKind .openParen us := by
    intro us hus
    by_contra hlt
    obtain ⟨vs, v, hvs, hv⟩ := exists_stray (not_le.mp hlt)
    have hbefore : vs ++ [v] <+: before := hvs.trans hus
    have hlength := h.earliest vs v
      (hbefore.trans ((List.prefix_append before [t]).trans h.here)) hv
    have := hbefore.length_le
    simp only [List.length_append, List.length_singleton] at this
    omega
  refine ⟨?_, hle⟩
  have hclosed := hle before List.prefix_rfl
  obtain ⟨hkind, hmore⟩ := h.holds
  simp only [countKind_append, countKind_cons, countKind_nil, hkind, if_true, reduceCtorEq,
    if_false] at hmore
  omega

/-- Balanced tokens without a stray parenthesis are nested. -/
theorem nested_of_no_stray {ts : List Token}
    (balanced : countKind .openParen ts = countKind .closeParen ts)
    (unstrayed : Nowhere Stray ts) : Nested ts := by
  refine ⟨balanced, fun us hus => ?_⟩
  by_contra hlt
  obtain ⟨before, t, hinit, ht⟩ := exists_stray (not_le.mp hlt)
  exact unstrayed before t (hinit.trans hus) ht

namespace Nested

variable {t : Token} {ts : List Token}

theorem head_ne_closeParen (h : Nested (t :: ts)) : t.kind ≠ .closeParen := by
  intro ht
  have := h.closed_le [t] (by simp)
  simp [ht] at this

theorem tail (h : Nested (t :: ts)) (hopen : t.kind ≠ .openParen) : Nested ts := by
  have hclose := h.head_ne_closeParen
  constructor
  · simpa [hopen, hclose] using h.balanced
  · intro us hus
    simpa [hopen, hclose] using h.closed_le (t :: us) (by simpa using hus)

/-- The parenthesis in front is closed later; what stands inside is nested, and so is what stands
behind. -/
theorem exists_group (h : Nested (t :: ts)) (hopen : t.kind = .openParen) :
    ∃ inner close rest, ts = inner ++ close :: rest ∧ close.kind = .closeParen ∧
      Nested inner ∧ Nested rest := by
  have hcount : countKind .openParen ts < countKind .closeParen ts := by
    have := h.balanced
    simp only [countKind_cons, hopen, if_true, reduceCtorEq, if_false] at this
    omega
  obtain ⟨_, _, hstray, holds⟩ := exists_stray hcount
  obtain ⟨inner, close, hfirst⟩ := FirstAt.exists_of_prefix hstray holds
  obtain ⟨rest, rfl⟩ := hfirst.here
  have hinner := hfirst.nested
  have hclose := hfirst.holds.1
  refine ⟨inner, close, rest, by simp, hclose, hinner, ?_, fun us hus => ?_⟩
  · have := h.balanced
    simp [hopen, hclose, hinner.balanced] at this
    omega
  · have := h.closed_le (t :: (inner ++ close :: us)) (by simpa using hus)
    simp [hopen, hclose, hinner.balanced] at this
    omega

end Nested
end Formula

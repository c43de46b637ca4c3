import Mathlib.Data.List.OfFn
import ContextParser.Proofs.Recovery

/-!
# Ordered choice

A choice is decided by the first of its alternatives that does not fail. What that one makes of the
original state is what the choice makes of it, and the alternatives behind it are not looked at. If
all of them fail, so does the choice, at the original state and with the messages of all of them.

So there is nothing to a choice but the order of its alternatives. One that is a choice itself may
give way to its own alternatives, and nobody can tell, not even by the messages: to join lines some
of which have been joined before is to join all of them. The exception is an inner choice without
alternatives; its message is empty, and leaves an empty line.
-/

set_option autoImplicit false

namespace ContextParser

/-- Joining what has been joined before is joining all of it at once. -/
theorem intercalate_nested (separator : String) {middle : List String} (h : middle ≠ [])
    (front back : List String) :
    separator.intercalate (front ++ separator.intercalate middle :: back) =
      separator.intercalate (front ++ (middle ++ back)) := by
  induction front with
  | nil =>
    cases back with
    | nil => simp
    | cons line lines =>
      rw [List.nil_append, List.nil_append, String.intercalate_cons_of_ne_nil (by simp),
        String.intercalate_append_of_ne_nil h (by simp)]
  | cons line lines ih =>
    rw [List.cons_append, List.cons_append, String.intercalate_cons_of_ne_nil (by simp),
      String.intercalate_cons_of_ne_nil (by simp [h]), ih]

namespace Parser

variable {C α : Type}

/-- All parsers of a list fail on a state. -/
def AllFail (s : State C) (ps : List (Parser C α)) : Prop :=
  ∀ p ∈ ps, ∃ e, p s = .failure e

variable {s : State C} {p : Parser C α} {ps qs before after : List (Parser C α)}

/-- All parsers of two lists fail if those of either list do. -/
theorem AllFail.append (hps : AllFail s ps) (hqs : AllFail s qs) : AllFail s (ps ++ qs) := by
  intro p hp
  rcases List.mem_append.1 hp with h | h
  · exact hps p h
  · exact hqs p h

/-- Parsers that all fail have a failure each. -/
theorem AllFail.exists_failures (h : AllFail s ps) :
    ∃ es, List.Forall₂ (fun p e => p s = .failure e) ps es := by
  induction ps with
  | nil => exact ⟨[], .nil⟩
  | cons p ps ih =>
    obtain ⟨e, he⟩ := h p List.mem_cons_self
    obtain ⟨es, hes⟩ := ih fun q hq => h q (List.mem_cons_of_mem p hq)
    exact ⟨e :: es, .cons he hes⟩

/-- Unless all parsers of a list fail, there is a first one that does not. -/
theorem allFail_or_exists_first (s : State C) (ps : List (Parser C α)) :
    AllFail s ps ∨ ∃ before p after, ps = before ++ p :: after ∧ AllFail s before ∧
      ∀ e, p s ≠ .failure e := by
  induction ps with
  | nil => exact .inl (by simp [AllFail])
  | cons p ps ih =>
    by_cases hp : ∃ e, p s = .failure e
    · rcases ih with hall | ⟨before, q, after, rfl, hbefore, hq⟩
      · exact .inl (List.forall_mem_cons.2 ⟨hp, hall⟩)
      · exact .inr ⟨p :: before, q, after, rfl, List.forall_mem_cons.2 ⟨hp, hbefore⟩, hq⟩
    · exact .inr ⟨[], p, ps, rfl, by simp [AllFail], not_exists.1 hp⟩

/-- The first alternative that does not fail decides, whatever stands behind it. -/
theorem any_of_first (hbefore : AllFail s before) (hp : ∀ e, p s ≠ .failure e)
    (after : List (Parser C α)) : any (before ++ p :: after) s = p s := by
  have hfirst : ∀ f : List String → Failure C,
      (firstSuccess s (before ++ p :: after)).mapFailure f = p s := by
    induction before with
    | nil =>
      intro f
      rw [List.nil_append, firstSuccess]
      cases hrun : p s with
      | success r => rfl
      | failure e => exact absurd hrun (hp e)
      | fault c => rfl
    | cons q before ih =>
      intro f
      obtain ⟨⟨e, he⟩, hrest⟩ := List.forall_mem_cons.1 hbefore
      rw [List.cons_append, firstSuccess, he]
      exact (Outcome.mapFailure_mapFailure ..).trans (ih hrest _)
  exact hfirst _

/-- A choice among parsers that all fail reports all of their messages. -/
theorem AllFail.any_eq (h : AllFail s ps) :
    ∃ es, List.Forall₂ (fun p e => p s = .failure e) ps es ∧
      any ps s = .failure (.exhausted (es.map (·.message)) s) := by
  obtain ⟨es, hes⟩ := h.exists_failures
  exact ⟨es, hes, any_of_forall_failure hes⟩

/-- A choice ends in anything but a failure exactly if the first of its alternatives that does not
fail ends in it. -/
theorem any_eq_iff {o : Outcome (Failure C) (Success C α)} (ho : ∀ e, o ≠ .failure e) :
    any ps s = o ↔
      ∃ before p after, ps = before ++ p :: after ∧ AllFail s before ∧ p s = o := by
  constructor
  · rintro rfl
    rcases allFail_or_exists_first s ps with hall | ⟨before, p, after, rfl, hbefore, hp⟩
    · obtain ⟨es, -, hfails⟩ := hall.any_eq
      exact absurd hfails (ho _)
    · exact ⟨before, p, after, rfl, hbefore, (any_of_first hbefore hp after).symm⟩
  · rintro ⟨before, p, after, rfl, hbefore, rfl⟩
    exact any_of_first hbefore ho after

/-- A choice fails exactly if every alternative does, with the messages of all of them in order. -/
theorem any_eq_failure_iff {e : Failure C} :
    any ps s = .failure e ↔
      ∃ es, List.Forall₂ (fun p e => p s = .failure e) ps es ∧
        e = .exhausted (es.map (·.message)) s := by
  constructor
  · intro h
    rcases allFail_or_exists_first s ps with hall | ⟨before, p, after, rfl, hbefore, hp⟩
    · obtain ⟨es, hes, hfails⟩ := hall.any_eq
      exact ⟨es, hes, Outcome.failure.inj (h.symm.trans hfails)⟩
    · exact absurd ((any_of_first hbefore hp after).symm.trans h) (hp e)
  · rintro ⟨es, hes, rfl⟩
    exact any_of_forall_failure hes

/-- A choice that has alternatives has messages if it fails. -/
theorem messages_ne_nil {es : List (Failure C)} (h : ps ≠ [])
    (hes : List.Forall₂ (fun p e => p s = .failure e) ps es) : es.map (·.message) ≠ [] := by
  cases hes with
  | nil => exact absurd rfl h
  | cons => simp

/-- An alternative that is a choice gives way to its own alternatives. The first alternative that
does not fail is the same before and after, be it in front of the inner choice, inside it or behind
it; if there is none, the messages are the same lines. -/
theorem any_nested (xs : List (Parser C α)) {ys : List (Parser C α)} (hys : ys ≠ [])
    (zs : List (Parser C α)) : any (xs ++ any ys :: zs) = any (xs ++ (ys ++ zs)) := by
  funext s
  rcases allFail_or_exists_first s xs with hxs | ⟨before, p, after, rfl, hbefore, hp⟩
  case inr =>
    simp only [List.append_assoc, List.cons_append]
    rw [any_of_first hbefore hp, any_of_first hbefore hp]
  rcases allFail_or_exists_first s ys with hfail | ⟨before, p, after, rfl, hbefore, hp⟩
  case inr =>
    have hinner : any (before ++ p :: after) s = p s := any_of_first hbefore hp after
    have hflat := any_of_first (hxs.append hbefore) hp (after ++ zs)
    simp only [List.append_assoc, List.cons_append] at hflat hinner ⊢
    rw [any_of_first hxs (by rwa [hinner]), hinner, hflat]
  obtain ⟨es, hes, hinner⟩ := hfail.any_eq
  rcases allFail_or_exists_first s zs with hzs | ⟨before, p, after, rfl, hbefore, hp⟩
  case inr =>
    have hchoice : AllFail s [any ys] := List.forall_mem_singleton.2 ⟨_, hinner⟩
    have hnested := any_of_first ((hxs.append hchoice).append hbefore) hp after
    have hflat := any_of_first ((hxs.append hfail).append hbefore) hp after
    simp only [List.append_assoc, List.singleton_append] at hnested hflat
    exact hnested.trans hflat.symm
  -- all have failed; the inner messages are joined once on their own and once with the others
  obtain ⟨front, hfront⟩ := hxs.exists_failures
  obtain ⟨back, hback⟩ := hzs.exists_failures
  have hnested := List.rel_append hfront (.cons hinner hback)
  have hflat := List.rel_append hfront (List.rel_append hes hback)
  rw [any_of_forall_failure hnested, any_of_forall_failure hflat]
  simp only [Failure.exhausted, List.map_append, List.map_cons,
    intercalate_nested "\n" (messages_ne_nil hys hes)]

/-- A choice whose alternatives are taken from a list one by one is the choice from the list. -/
theorem anyTuple_get (ps : List (Parser C α)) : anyTuple ps.get = any ps := by
  rw [anyTuple_eq_any, List.ofFn_get]

/-- The laws of choice. A choice ends in the success or the fault of the first alternative that does
not fail on the original state, and what stands behind that one does not matter. It fails exactly if
all of its alternatives do, and then reports their messages in order, one per line, at the state
from which it started. Alternatives that are written out one by one make the same choice as the list
of them. A choice among choices is the choice among all of their alternatives, as long as none of
the inner ones is empty. The choice of two is the one from the list of both, so it does not matter
how alternatives are grouped. -/
theorem choices_are_flat :
    (∀ (ps : List (Parser C α)) (s : State C) (r : Success C α), any ps s = .success r ↔
      ∃ before p after, ps = before ++ p :: after ∧ (∀ q ∈ before, ∃ e, q s = .failure e) ∧
        p s = .success r) ∧
    (∀ (ps : List (Parser C α)) (s : State C) (c : Fault), any ps s = .fault c ↔
      ∃ before p after, ps = before ++ p :: after ∧ (∀ q ∈ before, ∃ e, q s = .failure e) ∧
        p s = .fault c) ∧
    (∀ (before after after' : List (Parser C α)) (p : Parser C α) (s : State C),
      (∀ q ∈ before, ∃ e, q s = .failure e) → (∀ e, p s ≠ .failure e) →
        any (before ++ p :: after) s = any (before ++ p :: after') s) ∧
    (∀ (ps : List (Parser C α)) (s : State C) (e : Failure C), any ps s = .failure e ↔
      ∃ es, List.Forall₂ (fun p e => p s = .failure e) ps es ∧
        e = { kind := .exhaustedAlternatives, message := "\n".intercalate (es.map (·.message)),
              state := s }) ∧
    (∀ ps : List (Parser C α), anyTuple ps.get = any ps) ∧
    (∀ xs ys zs : List (Parser C α), ys ≠ [] →
      any (xs ++ [any ys] ++ zs) = any (xs ++ ys ++ zs)) ∧
    (∀ p q : Parser C α, or p q = any [p, q]) ∧
    ∀ p q r : Parser C α, or (or p q) r = or p (or q r) := by
  refine ⟨?_, ?_, ?_, fun _ _ _ => any_eq_failure_iff, anyTuple_get, ?_, fun _ _ => rfl, ?_⟩
  · exact fun ps s r => any_eq_iff (by simp)
  · exact fun ps s c => any_eq_iff (by simp)
  · intro before after after' p s hbefore hp
    rw [any_of_first hbefore hp, any_of_first hbefore hp]
  · intro xs ys zs hys
    simp only [List.append_assoc, List.singleton_append]
    exact any_nested xs hys zs
  · intro p q r
    have hleft : or (or p q) r = any [p, q, r] := any_nested [] (by simp) [r]
    have hright : or p (or q r) = any [p, q, r] := any_nested [p] (by simp) []
    rw [hleft, hright]

/-- Messages that are empty or have lines of their own stay where they are. -/
theorem choices_are_flat_brokenLines :
    any [literal "a", any [fail "", fail "two\nlines"], literal "c"] (.start "x" 0) =
      .failure { kind := .exhaustedAlternatives,
                 message := "Expected \"a\"\n\ntwo\nlines\nExpected \"c\"",
                 state := { text := "x", index := 0, context := 0 } } := by
  obtain ⟨-, -, -, -, -, hnested, -⟩ := @choices_are_flat Nat String
  have hflat := hnested [literal "a"] [fail "", fail "two\nlines"] [literal "c"] (by simp)
  exact congrFun hflat (.start "x" 0)

/-- An inner choice without alternatives leaves an empty line. -/
example :
    any [fail "a", any [], fail "b"] (.start "x" 0) =
      (.failure (.exhausted ["a", "", "b"] (.start "x" 0)) : Outcome _ (Success Nat Nat)) := rfl

end Parser

end ContextParser

import ContextParser.Parser.Repeat

/-!
# Contracts of parsers

A contract says four things about a parser: from which states it may be started, to which states a
success may lead, what a failure may report, and in which faults the run may end. The laws that come
with a contract are those by which it passes from the parts of a parser to the whole, so every
combinator keeps every contract that its parts keep. Only `when`, `modifyContext` and parsers from
outside have to be looked at for a particular contract.

Loops need no law of their own: each round leads on from where the last one stopped, and the state
that a failed attempt leaves behind is one that was reached before.
-/

set_option autoImplicit false

namespace ContextParser

/-- What is demanded of parsers, closed under putting them together. -/
structure Contract (C : Type) where
  /-- The states from which a parser may be started. -/
  starts : State C → Prop
  /-- From the first state, a success may end in the second. -/
  leads : State C → State C → Prop
  /-- From the state, the failure may be reported. -/
  reports : State C → Failure C → Prop
  /-- The faults in which a run may end. -/
  faults : Fault → Prop
  leads_refl : ∀ {s}, starts s → leads s s
  leads_trans : ∀ {s t u}, leads s t → leads t u → leads s u
  starts_of_leads : ∀ {s t}, starts s → leads s t → starts t
  reports_mismatch : ∀ {s} message, starts s → reports s (.mismatch message s)
  reports_exhausted : ∀ {s} messages, starts s → reports s (.exhausted messages s)
  reports_label : ∀ {s e} message, reports s e → reports s { e with message }
  reports_of_leads : ∀ {s t e}, leads s t → reports t e → reports s e
  faults_outOfBudget : faults .outOfBudget

namespace Contract

variable {C α β γ : Type} (K : Contract C)

/-- The outcomes that a contract allows for a run from a state. -/
def Allows (s : State C) : Outcome (Failure C) (Success C α) → Prop
  | .success r => K.leads s r.state
  | .failure e => K.reports s e
  | .fault c => K.faults c

/-- A parser keeps a contract when it is allowed to do what it does, wherever it may start. -/
def Kept (p : Parser C α) : Prop :=
  ∀ s, K.starts s → K.Allows s (p s)

variable {K}

/-- What is allowed from a later state is allowed from every state that may lead there. -/
theorem allows_of_leads {s t : State C} {o : Outcome (Failure C) (Success C α)}
    (h : K.leads s t) (ho : K.Allows t o) : K.Allows s o := by
  cases o with
  | success r => exact K.leads_trans h ho
  | failure e => exact K.reports_of_leads h ho
  | fault c => exact ho

/-- An outcome that is allowed may be followed by any computation that is allowed behind it. -/
theorem allows_bind {s : State C} {o : Outcome (Failure C) (Success C α)}
    {next : Success C α → Outcome (Failure C) (Success C β)} (ho : K.Allows s o)
    (hnext : ∀ r, K.leads s r.state → K.Allows s (next r)) : K.Allows s (o.bind next) := by
  cases o with
  | success r => exact hnext r ho
  | failure e => exact ho
  | fault c => exact ho

/-- A success may be changed as long as the contract still leads to its state. -/
theorem allows_map {s : State C} {o : Outcome (Failure C) (Success C α)}
    {f : Success C α → Success C β} (ho : K.Allows s o)
    (hf : ∀ r, K.leads s r.state → K.leads s (f r).state) : K.Allows s (o.map f) := by
  cases o with
  | success r => exact hf r ho
  | failure e => exact ho
  | fault c => exact ho

/-- A value yielded on the spot keeps every contract. -/
theorem kept_succeed (value : α) : K.Kept (Parser.succeed value) := fun _ hs =>
  K.leads_refl hs

/-- A failure reported on the spot keeps every contract. -/
theorem kept_fail (message : String) : K.Kept (Parser.fail message : Parser C α) := fun _ hs =>
  K.reports_mismatch message hs

/-- To look at the context keeps every contract. -/
theorem kept_context : K.Kept (Parser.context : Parser C C) := fun _ hs =>
  K.leads_refl hs

/-- A parser may be followed by any parser made from its value, if each of these keeps the
contract. -/
theorem kept_bind {p : Parser C α} {f : α → Parser C β} (hp : K.Kept p)
    (hf : ∀ a, K.Kept (f a)) : K.Kept (Parser.bind p f) := by
  intro s hs
  unfold Parser.bind
  apply allows_bind (hp s hs)
  intro r hr
  exact allows_of_leads hr (hf r.value r.state (K.starts_of_leads hs hr))

/-- A function of the value is of no concern to a contract. -/
theorem kept_map {p : Parser C α} (hp : K.Kept p) (f : α → β) : K.Kept (Parser.map p f) := by
  intro s hs
  unfold Parser.map
  exact allows_map (hp s hs) fun _ hr => hr

/-- A function of the value and the context is of no concern to a contract. -/
theorem kept_mapWith {p : Parser C α} (hp : K.Kept p) (f : α → C → β) :
    K.Kept (Parser.mapWith p f) := by
  intro s hs
  unfold Parser.mapWith
  exact allows_map (hp s hs) fun _ hr => hr

/-- A change of context has to be a step that the contract allows by itself. -/
theorem kept_modifyContext {p : Parser C α} {f : C → α → C} (hp : K.Kept p)
    (hf : ∀ a t, K.starts t → K.leads t (t.mapContext (f · a))) :
    K.Kept (Parser.modifyContext p f) := by
  intro s hs
  unfold Parser.modifyContext
  apply allows_map (hp s hs)
  intro r hr
  exact K.leads_trans hr (hf r.value r.state (K.starts_of_leads hs hr))

/-- Two parsers in a row keep what both keep. -/
theorem kept_zipWith {p : Parser C α} {q : Parser C β} (hp : K.Kept p) (hq : K.Kept q)
    (f : α → β → γ) : K.Kept (Parser.zipWith p q f) := by
  rw [Parser.zipWith_eq_bind]
  exact kept_bind hp fun _ => kept_bind hq fun _ => kept_succeed _

/-- Two parsers in a row keep what both keep, also where the second value is dropped. -/
theorem kept_seqLeft {p : Parser C α} {q : Parser C β} (hp : K.Kept p) (hq : K.Kept q) :
    K.Kept (Parser.seqLeft p q) :=
  kept_map (kept_zipWith hp hq Prod.mk) Prod.fst

/-- Two parsers in a row keep what both keep, also where the first value is dropped. -/
theorem kept_seqRight {p : Parser C α} {q : Parser C β} (hp : K.Kept p) (hq : K.Kept q) :
    K.Kept (Parser.seqRight p q) :=
  kept_map (kept_zipWith hp hq Prod.mk) Prod.snd

/-- A family of parsers in a row keeps what all of them keep. -/
theorem kept_all {n : Nat} {τ : Fin n → Type} {ps : (i : Fin n) → Parser C (τ i)}
    (hps : ∀ i, K.Kept (ps i)) : K.Kept (Parser.all ps) := by
  induction n with
  | zero => exact kept_succeed _
  | succ n ih =>
    have htail : K.Kept (Parser.all fun i : Fin n => ps i.succ) := ih fun i => hps i.succ
    rw [Parser.all_succ]
    exact kept_zipWith (hps 0) htail _

/-- A choice starts every alternative from the same state, so what the winner does is allowed from
there, and without a winner the failure is reported right there. -/
theorem kept_any {ps : List (Parser C α)} (hps : ∀ p ∈ ps, K.Kept p) :
    K.Kept (Parser.any ps) := by
  intro s hs
  unfold Parser.any
  have hfirst : ∀ f : List String → Failure C, (∀ messages, K.reports s (f messages)) →
      K.Allows s ((Parser.firstSuccess s ps).mapFailure f) := by
    induction ps with
    | nil => exact fun f hf => hf []
    | cons p ps ih =>
      intro f hf
      have hp := hps p List.mem_cons_self s hs
      rw [Parser.firstSuccess]
      cases hrun : p s with
      | success r =>
        rw [hrun] at hp
        exact hp
      | failure e =>
        simp only [Outcome.mapFailure_mapFailure]
        exact ih (fun q hq => hps q (List.mem_cons_of_mem p hq)) _ fun messages => hf _
      | fault c =>
        rw [hrun] at hp
        exact hp
  exact hfirst _ fun messages => K.reports_exhausted messages hs

/-- An optional parser either does as the parser does or stays where it started. -/
theorem kept_opt {p : Parser C α} (hp : K.Kept p) : K.Kept (Parser.opt p) := by
  intro s hs
  have h := hp s hs
  unfold Parser.opt
  cases hrun : p s with
  | success r =>
    rw [hrun] at h
    exact h
  | failure e => exact K.leads_refl hs
  | fault c =>
    rw [hrun] at h
    exact h

/-- Another message for a failure is of no concern to a contract. -/
theorem kept_label {p : Parser C α} (hp : K.Kept p) (message : String) :
    K.Kept (Parser.label p message) := by
  intro s hs
  have h := hp s hs
  unfold Parser.label
  cases hrun : p s with
  | success r =>
    rw [hrun] at h
    exact h
  | failure e =>
    rw [hrun] at h
    exact K.reports_label message h
  | fault c =>
    rw [hrun] at h
    exact h

/-- To yield the consumed text too is of no concern to a contract. -/
theorem kept_withText {p : Parser C α} (hp : K.Kept p) : K.Kept (Parser.withText p) := by
  intro s hs
  unfold Parser.withText
  exact allows_map (hp s hs) fun _ hr => hr

/-- Every round of a repetition starts where a contract led, and so does what stops it. -/
theorem kept_many {p : Parser C α} (hp : K.Kept p) (rounds : Nat) :
    K.Kept (Parser.many p rounds) := by
  induction rounds with
  | zero => exact fun _ _ => K.faults_outOfBudget
  | succ rounds ih =>
    intro s hs
    have h := hp s hs
    rw [Parser.many]
    cases hrun : p s with
    | success r =>
      rw [hrun] at h
      dsimp only
      split
      · exact h
      · have hrest := ih r.state (K.starts_of_leads hs h)
        exact allows_map (allows_of_leads h hrest) fun _ ht => ht
    | failure e => exact K.leads_refl hs
    | fault c =>
      rw [hrun] at h
      exact h

/-- A repetition is one run of the parser and the repetition that may follow it. -/
theorem kept_many1 {p : Parser C α} (hp : K.Kept p) (rounds : Nat) :
    K.Kept (Parser.many1 p rounds) := by
  cases rounds with
  | zero => exact fun _ _ => K.faults_outOfBudget
  | succ rounds =>
    intro s hs
    rw [Parser.many1]
    apply allows_bind (hp s hs)
    intro r hr
    split
    · exact hr
    · have hrest := kept_many hp rounds r.state (K.starts_of_leads hs hr)
      exact allows_map (allows_of_leads hr hrest) fun _ ht => ht

/-- Every round of separated items starts behind an item or at the beginning. -/
theorem kept_separatedTail {p : Parser C α} {sep : Parser C β} (hp : K.Kept p)
    (hsep : K.Kept sep) (rounds : Nat) : K.Kept (Parser.separatedTail p sep rounds) := by
  induction rounds with
  | zero => exact fun _ _ => K.faults_outOfBudget
  | succ rounds ih =>
    intro s hs
    have h := kept_seqRight hsep hp s hs
    rw [Parser.separatedTail]
    cases hrun : Parser.seqRight sep p s with
    | success r =>
      rw [hrun] at h
      have hrest := ih r.state (K.starts_of_leads hs h)
      exact allows_map (allows_of_leads h hrest) fun _ ht => ht
    | failure e => exact K.leads_refl hs
    | fault c =>
      rw [hrun] at h
      exact h

/-- Separated items are one item and the rounds that may follow it. -/
theorem kept_separatedBy {p : Parser C α} {sep : Parser C β} (hp : K.Kept p)
    (hsep : K.Kept sep) (rounds : Nat) : K.Kept (Parser.separatedBy p sep rounds) := by
  intro s hs
  have h := hp s hs
  unfold Parser.separatedBy
  cases hrun : p s with
  | success r =>
    rw [hrun] at h
    have hrest := kept_separatedTail hp hsep rounds r.state (K.starts_of_leads hs h)
    exact allows_map (allows_of_leads h hrest) fun _ ht => ht
  | failure e => exact K.leads_refl hs
  | fault c =>
    rw [hrun] at h
    exact h

end Contract

end ContextParser

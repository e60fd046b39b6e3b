import Deduce.Proofs.Catalog.Resolution
import Deduce.Proofs.Reasoner.Blocks

/-!
# What systems and settings are made of

`Blueprint.Describes` says of every argument for a system what it has to be.  A system is built of
arguments that are in order, with exactly the facts and rules that they describe, and of no others
(`Reasoner.create_eq_ok_iff`), but for the empty text: it counts as no facts, while any other text
is refused.  Settings are accepted if they are in range, and hold what was given
(`Settings.withRounds_eq_ok_iff`, `Settings.withReductions_eq_ok_iff`).

Whatever is refused is refused with a failure of construction, with two exceptions.  Rules that are
neither a list nor one of the things that are looked for (`RuleSource.isUnlistable`) fail where they
are listed, and a threshold that is no number fails where it is compared
(`Reasoner.kind_of_create_eq_error`, `Settings.kind_of_withReductions_eq_error`).
-/

namespace Deduce

open Attempts

/-! ### Settings -/

/-- The floating-point number that a value counts as. -/
def Value.float? : Value → Option Float
  | .double d => some d.value
  | v => v.integer?.map Float.ofInt

namespace Settings

/-- Bounds and thresholds are in their ranges. -/
structure InRange (s : Settings) : Prop where
  maxRounds : 0 ≤ s.maxRounds.toInt
  maxIterations : 1 ≤ s.maxIterations.toInt
  substitutionThreshold : 0.0 ≤ s.substitutionThreshold ∧ s.substitutionThreshold ≤ 1.0
  symmetryThreshold : 0.0 ≤ s.symmetryThreshold ∧ s.symmetryThreshold ≤ 1.0

theorem inRange_default : default.InRange :=
  ⟨by decide, by decide, by decide, by decide⟩

theorem rounds_eq_ok_iff {v : Value} {w : Whole} :
    rounds v = .ok w ↔ Whole.ofValue? v = some w ∧ 0 ≤ w.toInt := by
  unfold rounds
  cases Whole.ofValue? v with
  | none => simp
  | some u => grind

theorem iterations_eq_ok_iff {v : Value} {w : Whole} :
    iterations v = .ok w ↔ Whole.ofValue? v = some w ∧ 1 ≤ w.toInt := by
  unfold iterations
  cases Whole.ofValue? v with
  | none => simp
  | some u => grind

theorem kind_of_iterations_eq_error {v : Value} {f : Failure} (h : iterations v = .error f) :
    f.kind = .construction := by
  unfold iterations at h
  split at h
  · split at h
    · exact Except.error.inj h ▸ rfl
    · cases h
  · exact Except.error.inj h ▸ rfl

section Threshold

variable (field : String) {v : Value} {x : Float}

theorem threshold_of_float? (h : v.float? = some x) :
    threshold field v =
      if 0.0 ≤ x ∧ x ≤ 1.0 then .ok x else .error (.invalidThreshold field v) := by
  cases v with
  | double d => exact Option.some.inj h ▸ rfl
  | truth b => exact Option.some.inj h ▸ rfl
  | number n => exact Option.some.inj h ▸ rfl
  | nothing | text | list | tuple | record | sort | term => cases h

/-- What is no number cannot be compared. -/
theorem threshold_of_float?_eq_none (h : v.float? = none) :
    ∃ f, threshold field v = .error f ∧ (f.kind = .type ∨ f.kind = .sorts) := by
  cases v with
  | term e =>
    refine ⟨_, rfl, ?_⟩
    split
    · exact .inr rfl
    · exact .inl rfl
  | nothing | text | list | tuple | record | sort => exact ⟨_, rfl, .inl rfl⟩
  | truth | number | double => cases h

variable {field}

theorem threshold_eq_ok_iff :
    threshold field v = .ok x ↔ v.float? = some x ∧ 0.0 ≤ x ∧ x ≤ 1.0 := by
  cases h : v.float? with
  | none =>
    obtain ⟨f, hf, -⟩ := threshold_of_float?_eq_none field h
    simp [hf]
  | some y =>
    rw [threshold_of_float? field h]
    split <;> grind

theorem kind_of_threshold_eq_error {f : Failure} (h : threshold field v = .error f) :
    f.kind = .construction ∨ v.float? = none ∧ (f.kind = .type ∨ f.kind = .sorts) := by
  cases hv : v.float? with
  | none =>
    obtain ⟨g, hg, hkind⟩ := threshold_of_float?_eq_none field hv
    rw [hg] at h
    exact .inr ⟨rfl, Except.error.inj h ▸ hkind⟩
  | some y =>
    rw [threshold_of_float? field hv] at h
    split at h
    · cases h
    · exact .inl (Except.error.inj h ▸ rfl)

end Threshold

/-! ### Settings of which some are given -/

section Given

variable {α : Type} {check : Value → Except Failure α} {otherwise a : α} {v? : Option Value}

/-- What a setting is to be: what is read from the value for it, or the default if none is given. -/
def given (read : Value → Option α) (otherwise : α) (v? : Option Value) : Option α :=
  v?.elim (some otherwise) read

/-- A setting from a value that is checked, if one is given. -/
def setting (check : Value → Except Failure α) (otherwise : α) : Option Value → Except Failure α
  | none => pure otherwise
  | some v => check v

theorem setting_eq_ok_iff {read : Value → Option α} {P : α → Prop}
    (hcheck : ∀ {v a}, check v = .ok a ↔ read v = some a ∧ P a) (hdefault : P otherwise) :
    setting check otherwise v? = .ok a ↔ given read otherwise v? = some a ∧ P a := by
  cases v? with
  | some v => exact hcheck
  | none =>
    constructor
    · intro h
      obtain rfl := Except.ok.inj h
      exact ⟨rfl, hdefault⟩
    · rintro ⟨h, -⟩
      exact congrArg _ (Option.some.inj h)

theorem of_setting_eq_error {f : Failure} (h : setting check otherwise v? = .error f) :
    ∃ v, v? = some v ∧ check v = .error f := by
  cases v? with
  | none => cases h
  | some v => exact ⟨v, rfl, h⟩

end Given

variable {s s' : Settings} {f : Failure}
  {rounds? iterations? substitution? symmetry? : Option Value}

theorem withRounds_eq : s.withRounds rounds? = (do
    let maxRounds ← setting rounds s.maxRounds rounds?
    return { s with maxRounds }) := by
  cases rounds? with
  | none => rfl
  | some v =>
    change (rounds v).map _ = rounds v >>= _
    cases rounds v <;> rfl

theorem withReductions_eq : s.withReductions iterations? substitution? symmetry? = (do
    let maxIterations ← setting iterations s.maxIterations iterations?
    let substitutionThreshold ←
      setting (threshold "substitution_threshold") s.substitutionThreshold substitution?
    let symmetryThreshold ← setting (threshold "symmetry_threshold") s.symmetryThreshold symmetry?
    return { s with maxIterations, substitutionThreshold, symmetryThreshold }) := by
  cases iterations? <;> cases substitution? <;> cases symmetry? <;> rfl

/-- **A bound on rounds is accepted** if it is in range. -/
theorem withRounds_eq_ok_iff (hs : s.InRange) :
    s.withRounds rounds? = .ok s' ↔
      s'.InRange ∧ s' = { s with maxRounds := s'.maxRounds } ∧
        given Whole.ofValue? s.maxRounds rounds? = some s'.maxRounds := by
  rw [withRounds_eq]
  constructor
  · intro h
    obtain ⟨w, hw, h⟩ := exists_of_bind_eq_ok h
    obtain rfl := Except.ok.inj h
    rw [setting_eq_ok_iff rounds_eq_ok_iff hs.maxRounds] at hw
    exact ⟨⟨hw.2, hs.maxIterations, hs.substitutionThreshold, hs.symmetryThreshold⟩, rfl, hw.1⟩
  · rintro ⟨hrange, hs', hw⟩
    rw [(setting_eq_ok_iff rounds_eq_ok_iff hs.maxRounds).2 ⟨hw, hrange.maxRounds⟩]
    exact congrArg _ hs'.symm

/-- **Bounds and thresholds are accepted** if they are in range. -/
theorem withReductions_eq_ok_iff (hs : s.InRange) :
    s.withReductions iterations? substitution? symmetry? = .ok s' ↔
      s'.InRange ∧ s'.maxRounds = s.maxRounds ∧
        given Whole.ofValue? s.maxIterations iterations? = some s'.maxIterations ∧
        given Value.float? s.substitutionThreshold substitution? =
          some s'.substitutionThreshold ∧
        given Value.float? s.symmetryThreshold symmetry? = some s'.symmetryThreshold := by
  rw [withReductions_eq]
  constructor
  · intro h
    obtain ⟨i, hi, h⟩ := exists_of_bind_eq_ok h
    obtain ⟨x, hx, h⟩ := exists_of_bind_eq_ok h
    obtain ⟨y, hy, h⟩ := exists_of_bind_eq_ok h
    obtain rfl := Except.ok.inj h
    rw [setting_eq_ok_iff iterations_eq_ok_iff hs.maxIterations] at hi
    rw [setting_eq_ok_iff threshold_eq_ok_iff hs.substitutionThreshold] at hx
    rw [setting_eq_ok_iff threshold_eq_ok_iff hs.symmetryThreshold] at hy
    exact ⟨⟨hs.maxRounds, hi.2, hx.2, hy.2⟩, rfl, hi.1, hx.1, hy.1⟩
  · rintro ⟨hrange, hrounds, hi, hx, hy⟩
    rw [(setting_eq_ok_iff iterations_eq_ok_iff hs.maxIterations).2 ⟨hi, hrange.maxIterations⟩,
      (setting_eq_ok_iff threshold_eq_ok_iff hs.substitutionThreshold).2
        ⟨hx, hrange.substitutionThreshold⟩,
      (setting_eq_ok_iff threshold_eq_ok_iff hs.symmetryThreshold).2
        ⟨hy, hrange.symmetryThreshold⟩, ← hrounds]
    rfl

theorem kind_of_withRounds_eq_error (h : s.withRounds rounds? = .error f) :
    f.kind = .construction := by
  rw [withRounds_eq] at h
  rcases of_bind_eq_error h with h | ⟨w, -, h⟩
  · obtain ⟨v, -, hv⟩ := of_setting_eq_error h
    exact Command.kind_of_rounds_eq_error hv
  · cases h

/-- Settings are refused with a failure of construction, unless a threshold is no number. -/
theorem kind_of_withReductions_eq_error
    (h : s.withReductions iterations? substitution? symmetry? = .error f) :
    f.kind = .construction ∨
      (∃ v, (substitution? = some v ∨ symmetry? = some v) ∧ v.float? = none) ∧
        (f.kind = .type ∨ f.kind = .sorts) := by
  rw [withReductions_eq] at h
  rcases of_bind_eq_error h with h | ⟨i, -, h⟩
  · obtain ⟨v, -, hv⟩ := of_setting_eq_error h
    exact .inl (kind_of_iterations_eq_error hv)
  rcases of_bind_eq_error h with h | ⟨x, -, h⟩
  · obtain ⟨v, rfl, hv⟩ := of_setting_eq_error h
    exact (kind_of_threshold_eq_error hv).imp_right fun hv => ⟨⟨v, .inl rfl, hv.1⟩, hv.2⟩
  rcases of_bind_eq_error h with h | ⟨y, -, h⟩
  · obtain ⟨v, rfl, hv⟩ := of_setting_eq_error h
    exact (kind_of_threshold_eq_error hv).imp_right fun hv => ⟨⟨v, .inr rfl, hv.1⟩, hv.2⟩
  · cases h

end Settings

/-! ### Arguments -/

namespace Reasoner

section Arguments

variable {c : Catalog} {v : Value} {f : Failure} (system : String)

theorem requireName_eq_ok_iff {name : String} :
    requireName v = .ok name ↔ v = .text name ∧ nameErrors v = [] := by
  constructor
  · intro h
    unfold requireName at h
    split at h
    · rename_i s hnil
      exact ⟨congrArg _ (Except.ok.inj h), hnil⟩
    · cases h
  · rintro ⟨rfl, hnil⟩
    unfold requireName
    rw [hnil]

theorem kind_of_requireName_eq_error (h : requireName v = .error f) : f.kind = .construction := by
  unfold requireName at h
  split at h
  · cases h
  · exact Except.error.inj h ▸ rfl

theorem descriptionArgument_eq_ok_iff {description : String} :
    descriptionArgument system v = .ok description ↔ v = .text description := by
  cases v <;> simp [descriptionArgument]

theorem kind_of_descriptionArgument_eq_error (h : descriptionArgument system v = .error f) :
    f.kind = .construction := by
  unfold descriptionArgument at h
  split at h
  · cases h
  · exact Except.error.inj h ▸ rfl

theorem settingsArgument_eq_ok_iff {source : SettingsSource} {settings : Settings} :
    settingsArgument system source = .ok settings ↔
      source = .settings settings ∨ source = .value .nothing ∧ settings = .default := by
  unfold settingsArgument
  split <;> simp_all [eq_comm]

theorem kind_of_settingsArgument_eq_error {source : SettingsSource}
    (h : settingsArgument system source = .error f) : f.kind = .construction := by
  unfold settingsArgument at h
  split at h
  · cases h
  · cases h
  · exact Except.error.inj h ▸ rfl

theorem kind_of_rulesArgument_eq_error {source : RuleSource}
    (h : rulesArgument system source = .error f) : f.kind = .construction := by
  unfold rulesArgument at h
  split at h
  · cases h
  · exact Except.error.inj h ▸ rfl
  · exact Except.error.inj h ▸ rfl
  · exact Except.error.inj h ▸ rfl
  · cases h

end Arguments

end Reasoner

/-! ### Facts -/

theorem factErrors_map_term (i : Nat) (es : List Expr) : factErrors i (es.map .term) = [] := by
  induction es generalizing i with
  | nil => rfl
  | cons e es ih => exact ih (i + 1)

theorem factErrors_eq_nil_iff {i : Nat} {vs : List Value} :
    factErrors i vs = [] ↔ vs = (vs.filterMap Value.term?).map .term := by
  constructor
  · intro h
    induction vs generalizing i with
    | nil => rfl
    | cons v vs ih =>
      obtain ⟨hv, hvs⟩ := List.append_eq_nil_iff.1 h
      cases v with
      | term e => exact congrArg _ (ih hvs)
      | _ => cases hv
  · intro h
    rw [h]
    exact factErrors_map_term i _

namespace Reasoner

/-- The facts that a value holds: nothing stands for none. -/
def HoldsFacts (v : Value) (es : List Expr) : Prop :=
  v = .nothing ∧ es = [] ∨ factsErrors v = [] ∧ v.items? = some (es.map .term)

theorem requireFacts_eq_ok_iff {v : Value} : requireFacts v = .ok () ↔ factsErrors v = [] := by
  unfold requireFacts
  split <;> simp_all

theorem kind_of_requireFacts_eq_error {v : Value} {f : Failure} (h : requireFacts v = .error f) :
    f.kind = .construction := by
  unfold requireFacts at h
  split at h
  · cases h
  · exact Except.error.inj h ▸ rfl

theorem kind_of_materialize_eq_error {v : Value} {f : Failure} (h : materialize v = .error f) :
    f.kind = .construction := by
  unfold materialize at h
  split at h
  · cases h
  · cases h
  · split at h
    · cases h
    · exact Except.error.inj h ▸ rfl

theorem requireFacts_list_iff {vs : List Value} {es : List Expr} :
    requireFacts (.list vs) = .ok () ∧ termsOf (.list vs) = es ↔ vs = es.map .term := by
  rw [requireFacts_eq_ok_iff]
  change factErrors 0 vs = [] ∧ vs.filterMap Value.term? = es ↔ _
  rw [factErrors_eq_nil_iff]
  constructor
  · rintro ⟨hvs, rfl⟩
    exact hvs
  · rintro rfl
    have hes : (es.map Value.term).filterMap Value.term? = es := by
      rw [List.filterMap_map]
      exact List.filterMap_some
    exact ⟨by rw [hes], hes⟩

/-- A list of what a value holds is checked, in place of the value; this makes a difference for the
empty text alone. -/
theorem holdsFacts_iff {v : Value} (hv : v ≠ .text "") {es : List Expr} :
    HoldsFacts v es ↔ ∃ w, materialize v = .ok w ∧ requireFacts w = .ok () ∧ termsOf w = es := by
  have hlisted {vs : List Value} (h : materialize v = .ok (.list vs)) :
      (∃ w, materialize v = .ok w ∧ requireFacts w = .ok () ∧ termsOf w = es) ↔
        vs = es.map .term := by
    simp [h, requireFacts_list_iff]
  have hheld {vs : List Value} (hnothing : v ≠ .nothing) (hitems : v.items? = some vs)
      (herrors : factsErrors v = factErrors 0 vs) : HoldsFacts v es ↔ vs = es.map .term := by
    rw [HoldsFacts, hitems, herrors]
    constructor
    · rintro (⟨h, -⟩ | ⟨-, h⟩)
      · exact absurd h hnothing
      · exact Option.some.inj h
    · rintro rfl
      exact .inr ⟨factErrors_map_term 0 es, rfl⟩
  cases v with
  | nothing =>
    rw [hlisted rfl]
    simp [HoldsFacts, Value.items?, eq_comm]
  | list vs => rw [hlisted rfl, hheld (by simp) rfl rfl]
  | tuple vs => rw [hlisted rfl, hheld (by simp) rfl rfl]
  | record entries => rw [hlisted rfl, hheld (by simp) rfl rfl]
  | text s =>
    -- a text is refused as such, and so are its characters
    rw [hlisted rfl]
    have hs : s.toList ≠ [] := fun h => hv (congrArg _ (String.toList_eq_nil_iff.1 h))
    obtain ⟨char, chars, hchars⟩ := List.exists_cons_of_ne_nil hs
    rw [hchars]
    cases es <;> simp [HoldsFacts, factsErrors]
  | term e => simp [HoldsFacts, factsErrors, materialize, requireFacts]
  | truth | number | double | sort => simp [HoldsFacts, Value.items?, materialize]

end Reasoner

/-! ### Rules -/

namespace RuleSource

/-- The candidates that are listed for the rules of a system: nothing stands for none, and a text,
a rule or a function is not a list. -/
def listed? : RuleSource → Option (List RuleCandidate)
  | .many candidates => some candidates
  | .single (.value .nothing) => some []
  | .single (.value (.text _)) => none
  | .single (.value v) => v.items?.map (List.map .value)
  | .single _ => none

/-- What is neither a text, a rule or a function nor can be listed. -/
def isUnlistable : RuleSource → Bool
  | .single (.canonical _) => true
  | .single (.value (.truth _)) | .single (.value (.number _)) | .single (.value (.double _))
  | .single (.value (.sort _)) => true
  | .single (.value (.term e)) =>
    match e.sort with
    | .array [.int] _ | .array [.real] _ => false
    | _ => true
  | _ => false

theorem listed?_eq_some_iff (system : String) {source : RuleSource}
    {candidates : List RuleCandidate} :
    source.listed? = some candidates ↔
      ∃ source', Reasoner.rulesArgument system source = .ok source' ∧
        source'.candidates = .ok candidates := by
  cases source with
  | many candidates => simp [listed?, Reasoner.rulesArgument, RuleSource.candidates]
  | single candidate =>
    cases candidate with
    | value v =>
      cases v <;>
        simp [listed?, Reasoner.rulesArgument, RuleSource.candidates, Value.items?]
    | rule | canonical | function =>
      simp [listed?, Reasoner.rulesArgument, RuleSource.candidates]

/-- A function from numbers is listed, and its first value is no rule; other terms are not
listed. -/
theorem kind_refusal (e : Expr) :
    (refusal e).kind = .construction ∨ (single (.value (.term e))).isUnlistable = true ∧
      ((refusal e).kind = .type ∨ (refusal e).kind = .sorts) := by
  unfold refusal isUnlistable
  split
  · exact .inl rfl
  · exact .inl rfl
  · simp_all [Failure.kind]
  · split <;> simp_all [Failure.kind]

theorem kind_of_candidates_eq_error {system : String} {source source' : RuleSource} {f : Failure}
    (hsource : Reasoner.rulesArgument system source = .ok source')
    (h : source'.candidates = .error f) :
    f.kind = .construction ∨ source.isUnlistable = true ∧ (f.kind = .type ∨ f.kind = .sorts) := by
  cases source with
  | many candidates =>
    obtain rfl := Except.ok.inj hsource
    cases h
  | single candidate =>
    cases candidate with
    | rule | function => cases hsource
    | canonical t =>
      obtain rfl := Except.ok.inj hsource
      exact .inr ⟨rfl, .inl (Except.error.inj h ▸ rfl)⟩
    | value v =>
      cases v with
      | text => cases hsource
      | nothing | list | tuple | record =>
        obtain rfl := Except.ok.inj hsource
        cases h
      | truth | number | double | sort =>
        obtain rfl := Except.ok.inj hsource
        exact .inr ⟨rfl, .inl (Except.error.inj h ▸ rfl)⟩
      | term e =>
        obtain rfl := Except.ok.inj hsource
        exact Except.error.inj h ▸ kind_refusal e

end RuleSource

/-! ### Systems -/

/-- What a blueprint describes, if its arguments are in order. -/
structure Blueprint.Describes (c : Catalog) (b : Blueprint) (name description : String)
    (settings : Settings) (facts : List Expr) (rules : List Rule) : Prop where
  name : b.name = .text name ∧ nameErrors b.name = []
  description : b.description = .text description
  settings : b.settings = .settings settings ∨ b.settings = .value .nothing ∧ settings = .default
  facts : Reasoner.HoldsFacts b.facts facts
  rules : ∃ candidates, b.rules.listed? = some candidates ∧ c.resolveRules candidates = .ok rules

namespace Reasoner

variable {c : Catalog} {b : Blueprint} {s : Reasoner}

theorem foldl_record_eq (es : List Expr) (s : Reasoner) :
    es.foldl record s =
      { s with ledger := s.ledger.extend es, graph := es.foldl Graph.index s.graph } := by
  induction es generalizing s with
  | nil => rfl
  | cons e es ih => exact ih (s.record e)

/-- A system is built of arguments that are in order, and of no others. -/
theorem create_eq_ok_iff (hfacts : b.facts ≠ .text "") :
    create c b = .ok s ↔ ∃ name description settings facts rules,
      b.Describes c name description settings facts rules ∧
        s = facts.foldl record
          ⟨name, description, .empty, .empty, .new rules settings.maxRounds⟩ := by
  constructor
  · intro h
    unfold create at h
    obtain ⟨name, hname, h⟩ := exists_of_bind_eq_ok h
    obtain ⟨description, hdescription, h⟩ := exists_of_bind_eq_ok h
    obtain ⟨settings, hsettings, h⟩ := exists_of_bind_eq_ok h
    obtain ⟨source, hsource, h⟩ := exists_of_bind_eq_ok h
    obtain ⟨listed, hlisted, h⟩ := exists_of_bind_eq_ok h
    obtain ⟨_, hrequired, h⟩ := exists_of_bind_eq_ok h
    obtain ⟨candidates, hcandidates, h⟩ := exists_of_bind_eq_ok h
    obtain ⟨rules, hrules, h⟩ := exists_of_bind_eq_ok h
    refine ⟨name, description, settings, termsOf listed, rules, ?_, (Except.ok.inj h).symm⟩
    exact {
      name := requireName_eq_ok_iff.1 hname
      description := (descriptionArgument_eq_ok_iff name).1 hdescription
      settings := (settingsArgument_eq_ok_iff name).1 hsettings
      facts := (holdsFacts_iff hfacts).2 ⟨listed, hlisted, hrequired, rfl⟩
      rules := ⟨candidates, (RuleSource.listed?_eq_some_iff name).2 ⟨source, hsource, hcandidates⟩,
        hrules⟩ }
  · rintro ⟨name, description, settings, facts, rules, h, rfl⟩
    obtain ⟨candidates, hlisted, hrules⟩ := h.rules
    obtain ⟨source, hsource, hcandidates⟩ := (RuleSource.listed?_eq_some_iff name).1 hlisted
    obtain ⟨listed, hlisted, hrequired, rfl⟩ := (holdsFacts_iff hfacts).1 h.facts
    simp only [create, requireName_eq_ok_iff.2 h.name,
      (descriptionArgument_eq_ok_iff name).2 h.description,
      (settingsArgument_eq_ok_iff name).2 h.settings, hsource, hlisted, hrequired, hcandidates,
      hrules, bind, Except.bind, pure, Except.pure]

/-- What is refused is refused with a failure of construction, unless the rules cannot be
listed. -/
theorem kind_of_create_eq_error {f : Failure} (h : create c b = .error f) :
    f.kind = .construction ∨
      b.rules.isUnlistable = true ∧ (f.kind = .type ∨ f.kind = .sorts) := by
  unfold create at h
  rcases of_bind_eq_error h with h | ⟨name, -, h⟩
  · exact .inl (kind_of_requireName_eq_error h)
  rcases of_bind_eq_error h with h | ⟨description, -, h⟩
  · exact .inl (kind_of_descriptionArgument_eq_error name h)
  rcases of_bind_eq_error h with h | ⟨settings, -, h⟩
  · exact .inl (kind_of_settingsArgument_eq_error name h)
  rcases of_bind_eq_error h with h | ⟨source, hsource, h⟩
  · exact .inl (kind_of_rulesArgument_eq_error name h)
  rcases of_bind_eq_error h with h | ⟨listed, -, h⟩
  · exact .inl (kind_of_materialize_eq_error h)
  rcases of_bind_eq_error h with h | ⟨_, -, h⟩
  · exact .inl (kind_of_requireFacts_eq_error h)
  rcases of_bind_eq_error h with h | ⟨candidates, -, h⟩
  · exact RuleSource.kind_of_candidates_eq_error hsource h
  rcases of_bind_eq_error h with h | ⟨rules, -, h⟩
  · obtain ⟨-, refused, -, -, -, hrefused⟩ := exists_of_mapM_eq_error h
    exact .inl (Catalog.kind_of_resolveRule_eq_error hrefused)
  · cases h

/-- The empty text is no collection of facts. -/
theorem ne_empty_of_holdsFacts {v : Value} {es : List Expr} (h : HoldsFacts v es) :
    v ≠ .text "" := by
  rintro rfl
  rcases h with ⟨h, -⟩ | ⟨h, -⟩ <;> cases h

theorem create_of_describes {name description : String} {settings : Settings} {facts : List Expr}
    {rules : List Rule} (h : b.Describes c name description settings facts rules) :
    ∃ s, create c b = .ok s ∧ s.name = name ∧ s.description = description ∧ s.facts = facts ∧
      s.engine = .new rules settings.maxRounds := by
  have hcreate := (create_eq_ok_iff (ne_empty_of_holdsFacts h.facts)).2
    ⟨name, description, settings, facts, rules, h, rfl⟩
  rw [foldl_record_eq] at hcreate
  exact ⟨_, hcreate, rfl, rfl, Ledger.facts_extend .empty facts, rfl⟩

/-- **Misuse is reported.**  A system is built of arguments that are in order, with exactly the
facts and rules that they describe.  All others are refused, but for the empty text in the place of
facts, and the failure is one of construction unless the rules cannot be listed.  Settings are
accepted if they are in range, and then hold what was given; the failure is one of construction
unless a threshold is no number. -/
theorem construction_reports_misuse (c : Catalog) (b : Blueprint)
    (rounds? iterations? substitution? symmetry? : Option Value) :
    (∀ name description settings facts rules,
      b.Describes c name description settings facts rules →
        ∃ s, create c b = .ok s ∧ s.name = name ∧ s.description = description ∧ s.facts = facts ∧
          s.engine = .new rules settings.maxRounds) ∧
    (b.facts ≠ .text "" →
      (∀ name description settings facts rules,
        ¬ b.Describes c name description settings facts rules) →
      ∃ f, create c b = .error f ∧ (f.kind = .construction ∨
        b.rules.isUnlistable = true ∧ (f.kind = .type ∨ f.kind = .sorts))) ∧
    (∀ s, Settings.default.withRounds rounds? = .ok s ↔
      s.InRange ∧ s = { Settings.default with maxRounds := s.maxRounds } ∧
        Settings.given Whole.ofValue? Settings.default.maxRounds rounds? = some s.maxRounds) ∧
    (∀ f, Settings.default.withRounds rounds? = .error f → f.kind = .construction) ∧
    (∀ s, Settings.default.withReductions iterations? substitution? symmetry? = .ok s ↔
      s.InRange ∧ s.maxRounds = Settings.default.maxRounds ∧
        Settings.given Whole.ofValue? Settings.default.maxIterations iterations? =
          some s.maxIterations ∧
        Settings.given Value.float? Settings.default.substitutionThreshold substitution? =
          some s.substitutionThreshold ∧
        Settings.given Value.float? Settings.default.symmetryThreshold symmetry? =
          some s.symmetryThreshold) ∧
    ∀ f, Settings.default.withReductions iterations? substitution? symmetry? = .error f →
      f.kind = .construction ∨
        (∃ v, (substitution? = some v ∨ symmetry? = some v) ∧ v.float? = none) ∧
          (f.kind = .type ∨ f.kind = .sorts) := by
  refine ⟨fun _ _ _ _ _ => create_of_describes, fun hfacts hrefused => ?_,
    fun s => Settings.withRounds_eq_ok_iff Settings.inRange_default,
    fun f => Settings.kind_of_withRounds_eq_error,
    fun s => Settings.withReductions_eq_ok_iff Settings.inRange_default,
    fun f => Settings.kind_of_withReductions_eq_error⟩
  cases h : create c b with
  | ok s =>
    obtain ⟨name, description, settings, facts, rules, hdescribes, -⟩ :=
      (create_eq_ok_iff hfacts).1 h
    exact absurd hdescribes (hrefused name description settings facts rules)
  | error f => exact ⟨f, rfl, kind_of_create_eq_error h⟩

/-- A fact and the name of a rule, each in a collection; a number among the facts; a truth value for
the bound on rounds, and no passes. -/
theorem construction_reports_misuse_number :
    let x : Expr := .var "x" .int
    let b : Blueprint := ⟨.text "demo", .tuple [.term x],
      .single (.value (.list [.text "symmetry"])), .text "", .value .nothing⟩
    let refused : Blueprint := { b with facts := .list [.term x, .number 5] }
    let one := { Settings.default with maxRounds := .truth true }
    (∃ s, create .initial b = .ok s ∧ s.name = "demo" ∧ s.description = "" ∧ s.facts = [x] ∧
      s.engine = .new [.ofCanonical .symmetry] (.number 3)) ∧
    (∃ f, create .initial refused = .error f ∧ f.kind = .construction) ∧
    Settings.default.withRounds (some (.truth true)) = .ok one ∧
    ∃ f, Settings.default.withReductions (some (.number 0)) none none = .error f ∧
      f.kind = .construction := by
  intro x b refused one
  have hdescribes : b.Describes .initial "demo" "" .default [x] [.ofCanonical .symmetry] :=
    ⟨⟨rfl, by decide⟩, rfl, .inr ⟨rfl, rfl⟩, .inr ⟨rfl, rfl⟩, _, rfl, rfl⟩
  have hrefused (name description settings facts rules) :
      ¬ refused.Describes .initial name description settings facts rules := by
    intro h
    rcases h.facts with ⟨h, -⟩ | ⟨h, -⟩ <;> cases h
  have hone : one.InRange :=
    ⟨by decide, Settings.inRange_default.maxIterations,
      Settings.inRange_default.substitutionThreshold, Settings.inRange_default.symmetryThreshold⟩
  obtain ⟨hbuilt, -, hrounds, -, -, hreductions⟩ :=
    construction_reports_misuse .initial b (some (.truth true)) (some (.number 0)) none none
  obtain ⟨-, hfails, -⟩ := construction_reports_misuse .initial refused none none none none
  refine ⟨hbuilt _ _ _ _ _ hdescribes, ?_, (hrounds one).2 ⟨hone, rfl, rfl⟩, _, rfl, ?_⟩
  · obtain ⟨f, hf, hkind | ⟨hrules, -⟩⟩ := hfails (by simp [refused]) hrefused
    · exact ⟨f, hf, hkind⟩
    · cases hrules
  · rcases hreductions _ rfl with hkind | ⟨⟨v, hv | hv, -⟩, -⟩
    · exact hkind
    · cases hv
    · cases hv

/-- A number in the place of the rules, the empty text in the place of facts, and a text as a
threshold are misuse that is not reported as such. -/
theorem construction_misuse_escapes :
    let b : Blueprint := ⟨.text "demo", .nothing, .many [], .text "", .value .nothing⟩
    (∃ f, create .initial { b with rules := .single (.value (.number 5)) } = .error f ∧
      f.kind = .type) ∧
    (factsErrors (.text "") ≠ [] ∧ ∃ s, create .initial { b with facts := .text "" } = .ok s) ∧
    ∃ f, Settings.default.withReductions none (some (.text "x")) none = .error f ∧
      f.kind = .type :=
  ⟨⟨_, rfl, rfl⟩, ⟨by simp [factsErrors], _, rfl⟩, _, rfl, rfl⟩

end Reasoner

end Deduce

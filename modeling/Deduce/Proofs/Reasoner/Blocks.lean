import Deduce.Proofs.Chaining.Rounds
import Deduce.Proofs.Reasoner.Growth

/-!
# Blocks

A block with further rules is entered if all of them resolve.  If not, those before the first that
does not resolve have been added and stay (`Command.extraRules_refused`).

A failure may come up anywhere in the body of a block, be handled right there, or leave any number
of blocks.  `Command.Ends` lists the systems in which a command may end, over all these cases; what
`Command.run` does is one of them (`Command.run_ends`).  Blocks are well bracketed: in all cases a
block that was entered puts back the rules, or the bound on rounds, that were there before it
(`Command.blocks_well_bracketed`).  No other command touches the bound, so it is the same after
any command (`Command.Ends.maxRounds_eq`).
-/

namespace Deduce

open Attempts

namespace Reasoner

/-! ### The bound on rounds -/

theorem maxRounds_infer (s : Reasoner) (probe : Value) :
    (s.infer probe).system.engine.maxRounds = s.engine.maxRounds := by
  unfold infer
  split
  · rfl
  · change (s.engine.infer s.facts _).1.maxRounds = _
    rw [Engine.infer_engine]

theorem maxRounds_saturate (s : Reasoner) (bound : Value) (commit : Bool) :
    (s.saturate bound commit).system.engine.maxRounds = s.engine.maxRounds := by
  rw [← s.engine.maxRounds_saturate s.facts bound]
  unfold saturate
  dsimp only
  split
  · rfl
  · cases commit with
    | false => rfl
    | true =>
      dsimp only
      rw [if_pos rfl, engine_foldl_record]

theorem maxRounds_connectModel (s : Reasoner) (m : Model) :
    (s.connectModel m).system.engine.maxRounds = s.engine.maxRounds := by
  obtain ⟨es, hes⟩ := s.exists_connect_eq m
  rw [connectModel_system, hes, engine_foldl_record]

end Reasoner

namespace Command

open Reasoner

/-! ### Blocks that are not entered -/

/-- **A block whose rules do not all resolve** is not entered, but it leaves the rules of those
candidates that come before the first that does not resolve.  So the rules stay as they were only
if that one is the first of all. -/
theorem extraRules_refused {c : Catalog} {candidates : List RuleCandidate} {f : Failure}
    (h : c.resolveRules candidates = .error f) (s : Reasoner) (body : List Command) (stop : Bool) :
    ∃ earlier refused later rules, candidates = earlier ++ refused :: later ∧
      c.resolveRules earlier = .ok rules ∧ c.resolveRule refused = .error f ∧
      (extraRules candidates body stop).run c s =
        ⟨s.withRules (s.engine.rules ++ rules),
          .ok (.ruleBlock [] ((s.engine.rules ++ rules).map Rule.name) (some f)), []⟩ ∧
      (((extraRules candidates body stop).run c s).system.engine.rules = s.engine.rules ↔
        earlier = []) := by
  obtain ⟨earlier, refused, later, hsplit, hearlier, hrefused⟩ := exists_of_mapM_eq_error h
  have hadd : s.addRules c candidates =
      (s.withRules (s.engine.rules ++ gained (candidates.map c.resolveRule)), .error f) := by
    rw [addRules_eq, mapM_eq_error_iff.1 h]
  have hrun := run_extraRules_of_error hadd body stop
  refine ⟨earlier, refused, later, _, hsplit, hearlier, hrefused, hrun, ?_⟩
  rw [hrun]
  change s.engine.rules ++ _ = s.engine.rules ↔ _
  rw [List.append_right_eq_self, ← List.length_eq_zero_iff, ← List.length_eq_zero_iff,
    length_eq_of_mapM_eq_ok hearlier]

/-- A first candidate that is nothing keeps the second from being looked at. -/
theorem extraRules_refused_first :
    let s : Reasoner := ⟨"demo", "", .empty, .empty, .new [.ofCanonical .substitution] (.number 3)⟩
    let candidates : List RuleCandidate := [.value .nothing, .canonical .symmetry]
    Catalog.initial.resolveRules candidates = .error (.noRule "NoneType" "None") ∧
      ((extraRules candidates [] false).run .initial s).system.engine.rules = s.engine.rules := by
  intro s candidates
  have h : Catalog.initial.resolveRules candidates = .error (.noRule "NoneType" "None") := rfl
  refine ⟨h, ?_⟩
  obtain ⟨earlier, refused, later, rules, hsplit, hearlier, -, -, hiff⟩ :=
    extraRules_refused h s [] false
  cases earlier with
  | nil => exact hiff.2 rfl
  | cons candidate earlier =>
    -- the first candidate would have to resolve
    obtain ⟨rfl, -⟩ := List.cons.inj hsplit
    cases hearlier

/-- A second candidate that is nothing leaves the first among the rules. -/
theorem extraRules_refused_second :
    let s : Reasoner := ⟨"demo", "", .empty, .empty, .new [.ofCanonical .substitution] (.number 3)⟩
    let r := (extraRules [.canonical .symmetry, .value .nothing] [] false).run .initial s
    s.ruleNames = ["substitution"] ∧
      r.answer = .ok (.ruleBlock [] ["substitution", "symmetry"]
        (some (.noRule "NoneType" "None"))) ∧
      r.system.ruleNames = ["substitution", "symmetry"] :=
  ⟨rfl, rfl, rfl⟩

/-! ### Where commands may end -/

/-- Whether a command has a body. -/
def isBlock : Command → Bool
  | .extraRules .. | .roundLimit .. => true
  | _ => false

mutual

/-- The systems in which a command may end, begun in a given one. -/
inductive Ends (c : Catalog) : Reasoner → Command → Reasoner → Prop where
  /-- A command without a body ends where it does, whether or not it fails. -/
  | plain {s : Reasoner} {command : Command} (hplain : command.isBlock = false) :
      Ends c s command (command.run c s).system
  /-- One of the further rules does not resolve. -/
  | rulesRefused {s t : Reasoner} {candidates : List RuleCandidate} {f : Failure}
      (hentry : s.addRules c candidates = (t, .error f)) (body : List Command) (stop : Bool) :
      Ends c s (.extraRules candidates body stop) t
  /-- The body is left, and the rules are set to those at the start. -/
  | rules {s entered t u : Reasoner} {candidates : List RuleCandidate} {body : List Command}
      (hentry : s.addRules c candidates = (entered, .ok ())) (hbody : LeftIn c entered body t)
      (hexit : t.setRules c (.many (s.engine.rules.map .rule)) = .ok u) (stop : Bool) :
      Ends c s (.extraRules candidates body stop) u
  /-- The bound is refused. -/
  | limitRefused {s : Reasoner} {bound : Value} {f : Failure}
      (hentry : Settings.rounds bound = .error f) (body : List Command) (stop : Bool) :
      Ends c s (.roundLimit bound body stop) s
  /-- The body is left, and the bound is the one from the start. -/
  | limit {s t : Reasoner} {bound : Value} {limit : Whole} {body : List Command}
      (hentry : Settings.rounds bound = .ok limit) (hbody : LeftIn c (s.withMaxRounds limit) body t)
      (stop : Bool) :
      Ends c s (.roundLimit bound body stop) (t.withMaxRounds s.engine.maxRounds)

/-- The systems in which a body may be left, begun in a given one.  It may be left before, between
and after its commands; a command that fails may be the last, and so may a block whose own body was
left early. -/
inductive LeftIn (c : Catalog) : Reasoner → List Command → Reasoner → Prop where
  | here (s : Reasoner) (body : List Command) : LeftIn c s body s
  | later {s t u : Reasoner} {command : Command} {rest : List Command}
      (hcommand : Ends c s command t) (hrest : LeftIn c t rest u) : LeftIn c s (command :: rest) u

end

mutual

/-- What a command does is one of the ways in which it may end. -/
theorem run_ends (c : Catalog) (s : Reasoner) :
    ∀ command : Command, Ends c s command (command.run c s).system
  | .extraRules candidates body stop => by
    cases hadd : s.addRules c candidates with
    | mk t entry =>
      cases entry with
      | error f =>
        rw [run_extraRules_of_error hadd]
        exact .rulesRefused hadd body stop
      | ok u =>
        rw [system_run_extraRules hadd]
        exact .rules hadd (runBody_leftIn c stop t body) (setRules_rules c _ _) stop
  | .roundLimit bound body stop => by
    cases hlimit : Settings.rounds bound with
    | error f =>
      rw [run_roundLimit_of_error hlimit]
      exact .limitRefused hlimit body stop
    | ok limit =>
      rw [system_run_roundLimit hlimit]
      exact .limit hlimit (runBody_leftIn c stop (s.withMaxRounds limit) body) stop
  | .addFact _ | .addFacts _ | .setRules _ | .addRule _ | .state | .factsAbout _ | .infer _
  | .saturate .. | .faults | .outcomeCount _ | .stats | .resetStats | .describe | .connect _
  | .malformed _ => .plain rfl

/-- A body is left after its last command, or after one that failed. -/
theorem runBody_leftIn (c : Catalog) (stop : Bool) (s : Reasoner) :
    ∀ body : List Command, LeftIn c s body (runBody c stop s body).system
  | [] => .here s []
  | command :: rest => by
    have hcommand := run_ends c s command
    -- a body that is to stop at a failure is left after the command that failed
    rcases system_runBody_cons c stop s command rest with h | h
    · rw [h]
      exact .later hcommand (.here _ rest)
    · rw [h]
      exact .later hcommand (runBody_leftIn c stop (command.run c s).system rest)

end

/-! ### What blocks put back -/

theorem maxRounds_run_of_plain (c : Catalog) (s : Reasoner) {command : Command}
    (h : command.isBlock = false) :
    (command.run c s).system.engine.maxRounds = s.engine.maxRounds := by
  cases command with
  | addFact v =>
    rw [run]
    split
    · rename_i s' hs'
      obtain ⟨e, -, rfl⟩ := addFact_eq_ok hs'
      rfl
    · rfl
  | addFacts vs =>
    rw [run, addFacts_eq, respondState_system, engine_foldl_record]
  | setRules source =>
    rw [run]
    split
    · rename_i s' hs'
      obtain ⟨rules, rfl⟩ := exists_withRules_of_setRules hs'
      rfl
    · rfl
  | addRule candidate =>
    rw [run]
    split
    · rename_i s' r hs'
      obtain ⟨rules, rfl⟩ := exists_withRules_of_addRule hs'
      rfl
    · rfl
  | infer probe => exact s.maxRounds_infer probe
  | saturate bound commit => exact s.maxRounds_saturate bound commit
  | connect m => exact s.maxRounds_connectModel m
  | state | factsAbout | faults | outcomeCount | stats | resetStats | describe | malformed => rfl
  | extraRules | roundLimit => cases h

mutual

/-- No command changes the bound on rounds for good. -/
theorem Ends.maxRounds_eq {c : Catalog} {s t : Reasoner} {command : Command}
    (h : Ends c s command t) : t.engine.maxRounds = s.engine.maxRounds := by
  match h with
  | .plain hplain => exact maxRounds_run_of_plain c s hplain
  | .rulesRefused hentry _ _ =>
    rw [addRules_eq] at hentry
    obtain ⟨rfl, -⟩ := Prod.mk.inj hentry
    rfl
  | .rules hentry hbody hexit _ =>
    have hleft := hbody.maxRounds_eq
    -- the start and the end of the block are about rules alone
    rw [addRules_eq] at hentry
    obtain ⟨rfl, -⟩ := Prod.mk.inj hentry
    obtain ⟨rules, rfl⟩ := exists_withRules_of_setRules hexit
    exact hleft
  | .limitRefused _ _ _ => rfl
  | .limit _ _ _ => rfl
termination_by structural h

theorem LeftIn.maxRounds_eq {c : Catalog} {s t : Reasoner} {body : List Command}
    (h : LeftIn c s body t) : t.engine.maxRounds = s.engine.maxRounds := by
  match h with
  | .here _ _ => rfl
  | .later hcommand hrest => exact hrest.maxRounds_eq.trans hcommand.maxRounds_eq
termination_by structural h

end

theorem Ends.rules_eq_of_entered {c : Catalog} {s t : Reasoner} {candidates : List RuleCandidate}
    {rules : List Rule} {body : List Command} {stop : Bool}
    (h : Ends c s (.extraRules candidates body stop) t)
    (hentered : c.resolveRules candidates = .ok rules) : t.engine.rules = s.engine.rules := by
  cases h with
  | plain hplain => cases hplain
  | rulesRefused hentry =>
    rw [addRules_of_resolveRules_ok hentered] at hentry
    cases hentry
  | rules hentry hbody hexit =>
    -- whatever the body did to the rules, those from the start resolve to themselves
    rw [setRules_rules] at hexit
    rw [← Except.ok.inj hexit]
    rfl

theorem Ends.eq_of_limitRefused {c : Catalog} {s t : Reasoner} {bound : Value} {f : Failure}
    {body : List Command} {stop : Bool} (h : Ends c s (.roundLimit bound body stop) t)
    (hrefused : Settings.rounds bound = .error f) : t = s := by
  cases h with
  | plain hplain => cases hplain
  | limitRefused => rfl
  | limit hentry =>
    rw [hrefused] at hentry
    cases hentry

theorem kind_of_rounds_eq_error {bound : Value} {f : Failure}
    (h : Settings.rounds bound = .error f) : f.kind = .construction := by
  unfold Settings.rounds at h
  split at h
  · split at h
    · rw [← Except.error.inj h]
      rfl
    · cases h
  · rw [← Except.error.inj h]
    rfl

/-- **Blocks are well bracketed.**  A block with further rules is entered with these rules behind
those there are.  Wherever its body is left, and whatever the body did to the rules and whichever
blocks it opened, the rules after the block are those before it, and so is the bound on rounds,
also after a block that was entered with another bound.  A bound that is refused is a failure of
construction, and nothing happens then.  What a command does is one of the ways in which it may
end. -/
theorem blocks_well_bracketed (c : Catalog) (s : Reasoner) (body : List Command) (stop : Bool) :
    (∀ candidates rules, c.resolveRules candidates = .ok rules →
      s.addRules c candidates = (s.withRules (s.engine.rules ++ rules), .ok ()) ∧
      ∀ t, Ends c s (.extraRules candidates body stop) t →
        t.engine.rules = s.engine.rules ∧ t.engine.maxRounds = s.engine.maxRounds) ∧
    (∀ bound limit, Settings.rounds bound = .ok limit →
      ∀ t, Ends c s (.roundLimit bound body stop) t →
        t.engine.maxRounds = s.engine.maxRounds) ∧
    (∀ bound f, Settings.rounds bound = .error f → f.kind = .construction ∧
      (roundLimit bound body stop).run c s =
        ⟨s, .ok (.limitBlock [] s.engine.maxRounds (some f)), []⟩ ∧
      ∀ t, Ends c s (.roundLimit bound body stop) t → t = s) ∧
    ∀ command : Command, Ends c s command (command.run c s).system := by
  refine ⟨fun candidates rules hrules => ?_, fun bound limit _ t ht => ht.maxRounds_eq,
    fun bound f hf => ?_, run_ends c s⟩
  · exact ⟨addRules_of_resolveRules_ok hrules s,
      fun t ht => ⟨ht.rules_eq_of_entered hrules, ht.maxRounds_eq⟩⟩
  · exact ⟨kind_of_rounds_eq_error hf, run_roundLimit_of_error hf body stop,
      fun t ht => ht.eq_of_limitRefused hf⟩

/-- The body of a block opens another one, which empties the rules, tries to add some and is left
early; then it adds a rule and is left early itself. -/
theorem blocks_well_bracketed_nested :
    let s : Reasoner := ⟨"demo", "", .empty, .empty, .new [.ofCanonical .substitution] (.number 3)⟩
    let body : List Command := [
      .roundLimit (.number 1) [.setRules (.many []),
        .extraRules [.canonical .transitivity, .value .nothing] [] false,
        .addFact .nothing, .state] true,
      .addRule (.canonical .modusPonens), .addFact .nothing, .state]
    let r := (extraRules [.canonical .symmetry] body true).run .initial s
    (runBody .initial true (s.withRules [.ofCanonical .substitution, .ofCanonical .symmetry])
        body).system.ruleNames = ["transitivity", "modus_ponens"] ∧
      r.system.engine.rules = s.engine.rules ∧ r.system.engine.maxRounds = s.engine.maxRounds := by
  intro s body r
  obtain ⟨hrules, -, -, hends⟩ := blocks_well_bracketed .initial s body true
  have hresolve : Catalog.initial.resolveRules [.canonical .symmetry] =
      .ok [.ofCanonical .symmetry] := rfl
  exact ⟨rfl, (hrules _ _ hresolve).2 r.system (hends _)⟩

end Command

end Deduce

import Deduce.Reasoner.Model

/-!
# Sessions

A session is a list of commands to a system.  `Command.run` carries out one of them: it gives the
system afterwards, a reply or a failure, and log records.  A failure leaves everything in place
that was done before it.

Two commands open a block.  `extraRules` adds rules for the duration of its body and
`roundLimit` changes the bound on rounds; both put back what was there before when the body ends,
also if it is left early.  Rules that were added before one of them failed to resolve stay.
-/

namespace Deduce

/-- What can be asked of a system. -/
inductive Command where
  | addFact (v : Value)
  | addFacts (vs : List Value)
  | setRules (source : RuleSource)
  | addRule (candidate : RuleCandidate)
  | state
  | factsAbout (v : Expr)
  | infer (probe : Value)
  /-- Chains forward; what is found may be entered as facts. -/
  | saturate (bound : Value) (commit : Bool)
  | faults
  | outcomeCount (outcome : Outcome)
  | stats
  | resetStats
  | describe
  | connect (model : Model)
  /-- Carries out the body with further rules; `stop` leaves it at the first failure. -/
  | extraRules (candidates : List RuleCandidate) (body : List Command) (stop : Bool)
  /-- Carries out the body with another bound on rounds. -/
  | roundLimit (bound : Value) (body : List Command) (stop : Bool)
  /-- A command that cannot be made of what was given. -/
  | malformed (reason : Failure)

/-- What a system answers. -/
inductive Reply where
  | state (system : Reasoner)
  | facts (es : List Expr)
  | rule (r : Rule)
  | inferred (es : List Expr) (stats : Stats)
  | saturated (es : List Expr) (steps : List Step) (stats : Stats) (size : Nat)
  | faults (counts : List (String × Nat))
  | count (n : Nat)
  | stats (stats : Stats) (steps : List Step)
  | description (system graph name description : String)
  | connected
  /-- The end of a block with further rules, and the rules afterwards. -/
  | ruleBlock (body : List (Except Failure Reply)) (rules : List String) (raised : Option Failure)
  /-- The end of a block with another bound, and the bound afterwards. -/
  | limitBlock (body : List (Except Failure Reply)) (maxRounds : Whole) (raised : Option Failure)

/-- What comes of a command. -/
structure Response where
  /-- The system afterwards. -/
  system : Reasoner
  /-- The reply. -/
  answer : Except Failure Reply
  /-- The log records. -/
  log : List Record

/-- What comes of the body of a block. -/
structure BodyResponse where
  /-- The system afterwards. -/
  system : Reasoner
  /-- The replies. -/
  answers : List (Except Failure Reply)
  /-- The log records. -/
  log : List Record
  /-- Whether the body was left early. -/
  stopped : Bool

namespace Reasoner

/-- A response without log records. -/
def respond (s : Reasoner) (answer : Except Failure Reply) : Response := ⟨s, answer, []⟩

/-- A response with the state of the system, after an operation that may have failed. -/
def respondState (s : Reasoner) : Except Failure Unit → Response
  | .ok () => s.respond (.ok (.state s))
  | .error f => s.respond (.error f)

/-- Applies every rule to a probe, which must be a term. -/
def infer (s : Reasoner) (probe : Value) : Response :=
  match requireExpression "probe" probe with
  | .error f => s.respond (.error f)
  | .ok e =>
    let (engine, es) := s.engine.infer s.facts (.term e)
    { s with engine }.respond (.ok (.inferred es engine.stats))

/-- Chains forward from the facts and enters what was found, if asked to. -/
def saturate (s : Reasoner) (bound : Value) (commit : Bool) : Response :=
  let (engine, found, log) := s.engine.saturate s.facts bound
  let s := { s with engine }
  match found with
  | .error f => ⟨s, .error f, log⟩
  | .ok es =>
    let s := if commit then es.foldl record s else s
    ⟨s, .ok (.saturated es engine.steps engine.stats s.ledger.size), log⟩

/-- Connects a model. -/
def connectModel (s : Reasoner) (m : Model) : Response :=
  match s.connect m with
  | (s, .ok ()) => ⟨s, .ok .connected, [s.connectedRecord]⟩
  | (s, .error f) => s.respond (.error f)

end Reasoner

/-- The failure with which a block was left. -/
def BodyResponse.raised (b : BodyResponse) : Option Failure :=
  if b.stopped then some .stopped else none

mutual

/-- Carries out a command. -/
def Command.run (c : Catalog) (s : Reasoner) : Command → Response
  | .addFact v =>
    match s.addFact v with
    | .ok s => s.respondState (.ok ())
    | .error f => s.respond (.error f)
  | .addFacts vs =>
    let (s, result) := s.addFacts vs
    s.respondState result
  | .setRules source =>
    match s.setRules c source with
    | .ok s => s.respondState (.ok ())
    | .error f => s.respond (.error f)
  | .addRule candidate =>
    match s.addRule c candidate with
    | .ok (s, r) => s.respond (.ok (.rule r))
    | .error f => s.respond (.error f)
  | .state => s.respondState (.ok ())
  | .factsAbout v => s.respond (.ok (.facts (s.graph.factsFor v)))
  | .infer probe => s.infer probe
  | .saturate bound commit => s.saturate bound commit
  | .faults => s.respond (.ok (.faults s.engine.stats.faults))
  | .outcomeCount o => s.respond (.ok (.count (s.engine.stats.count o)))
  | .stats => s.respond (.ok (.stats s.engine.stats s.engine.steps))
  | .resetStats =>
    let s := { s with engine := s.engine.resetStats }
    s.respond (.ok (.stats s.engine.stats s.engine.steps))
  | .describe => s.respond (.ok (.description s.render s.graph.render s.name s.description))
  | .connect m => s.connectModel m
  | .extraRules candidates body stop =>
    match s.addRules c candidates with
    | (s, .error f) => s.respond (.ok (.ruleBlock [] s.ruleNames (some f)))
    | (entered, .ok ()) =>
      let b := Command.runBody c stop entered body
      let after := b.system.withRules s.engine.rules
      ⟨after, .ok (.ruleBlock b.answers after.ruleNames b.raised), b.log⟩
  | .roundLimit bound body stop =>
    match Settings.rounds bound with
    | .error f => s.respond (.ok (.limitBlock [] s.engine.maxRounds (some f)))
    | .ok limit =>
      let b := Command.runBody c stop (s.withMaxRounds limit) body
      let after := b.system.withMaxRounds s.engine.maxRounds
      ⟨after, .ok (.limitBlock b.answers after.engine.maxRounds b.raised), b.log⟩
  | .malformed reason => s.respond (.error reason)

/-- Carries out the commands of a body, up to the first failure if it is to stop there. -/
def Command.runBody (c : Catalog) (stop : Bool) (s : Reasoner) : List Command → BodyResponse
  | [] => ⟨s, [], [], false⟩
  | command :: rest =>
    let r := Command.run c s command
    let failed :=
      match r.answer with
      | .ok _ => false
      | .error _ => true
    if stop && failed then ⟨r.system, [r.answer], r.log, true⟩
    else
      let b := Command.runBody c stop r.system rest
      ⟨b.system, r.answer :: b.answers, r.log ++ b.log, b.stopped⟩

end

/-- Carries out the commands of a session, one after the other. -/
def Reasoner.session (c : Catalog) : Reasoner → List Command → List Response
  | _, [] => []
  | s, command :: rest =>
    let r := command.run c s
    r :: Reasoner.session c r.system rest

end Deduce

import Deduce.Proofs.Data.WholeFloats
import Deduce.Proofs.Term.Building
import Deduce.Proofs.Term.Nodes
import Deduce.Term.Similarity
import Mathlib.Algebra.Order.BigOperators.Group.List
import Mathlib.Algebra.Order.Field.Basic
import Mathlib.Algebra.Order.Ring.Rat
import Mathlib.Tactic.Linarith

/-!
# Full agreement

What zero, one and all means of such scores have in common holds of every score
(`Expr.similarityAs_of_mean`); so in exact arithmetic all scores lie between zero and one.  Which of
the two terms comes first does not matter, whatever the scores are (`Expr.similarityAs_comm`).  A
term agrees fully with itself as long as the mean of ones is one (`Expr.similarityAs_self`), and
that is so in exact arithmetic and, up to any number of arguments that can be counted, in
floating-point numbers.

In exact arithmetic it agrees fully with nothing else (`Expr.eq_of_exactSimilarity`): a mean of
numbers up to one is one only if each of them is, so the arguments are equal, and the operators
are, since a well-sorted application shows the sorts of its operator's arguments.  What it does not
show is the sort that a function has as its result, so this must be the same wherever a function of
that name and these arguments occurs (`Expr.SignaturesAgree`).

All of it together says that the score measures equality (`Expr.exactSimilarity_measures_equality`).
-/

namespace Deduce

/-! ### Means -/

namespace Score

variable {xs : List Rat}

theorem mean_eq (xs : List Rat) : mean xs = xs.sum / xs.length := by
  rw [List.sum_eq_foldl]
  rfl

theorem mean_nonneg (h : ∀ x ∈ xs, 0 ≤ x) : 0 ≤ mean xs := by
  rw [mean_eq]
  exact div_nonneg (List.sum_nonneg h) (Nat.cast_nonneg _)

theorem sum_le_length (h : ∀ x ∈ xs, x ≤ 1) : xs.sum ≤ xs.length := by
  simpa using List.sum_le_card_nsmul xs 1 h

theorem mean_le_one (h : ∀ x ∈ xs, x ≤ 1) : mean xs ≤ 1 := by
  rw [mean_eq]
  exact div_le_one_of_le₀ (sum_le_length h) (Nat.cast_nonneg _)

theorem eq_one_of_sum (h : ∀ x ∈ xs, x ≤ 1) (hsum : xs.sum = xs.length) : ∀ x ∈ xs, x = 1 := by
  induction xs with
  | nil => simp
  | cons y ys ih =>
    have hy : y ≤ 1 := h y List.mem_cons_self
    have hys := sum_le_length fun x hx => h x (List.mem_cons_of_mem y hx)
    rw [List.sum_cons, List.length_cons, Nat.cast_succ] at hsum
    -- Neither the first number nor the sum of the others can make up for what the other lacks.
    have hy' : y = 1 := by linarith
    have hys' : ys.sum = ys.length := by linarith
    intro x hx
    rcases List.mem_cons.1 hx with rfl | hx
    · exact hy'
    · exact ih (fun x hx => h x (List.mem_cons_of_mem y hx)) hys' x hx

theorem eq_one_of_mean (h : ∀ x ∈ xs, x ≤ 1) (hmean : mean xs = 1) : ∀ x ∈ xs, x = 1 := by
  intro x hx
  have hlength : (xs.length : Rat) ≠ 0 := by simpa using List.ne_nil_of_mem hx
  rw [mean_eq, div_eq_one_iff_eq hlength] at hmean
  exact eq_one_of_sum h hmean x hx

theorem mean_replicate_one {n : Nat} (hn : n ≠ 0) : mean (List.replicate n (1 : Rat)) = 1 := by
  have hn' : (n : Rat) ≠ 0 := by simpa using hn
  rw [mean_eq, List.sum_replicate, List.length_replicate, nsmul_one, div_self hn']

theorem foldl_add_ones {k n : Nat} (hb : k + n < 2 ^ 53) :
    (List.replicate n (1.0 : Float)).foldl (· + ·) (Float.ofNat k) = Float.ofNat (k + n) := by
  induction n generalizing k with
  | zero => rfl
  | succ n ih =>
    rw [List.replicate_succ, List.foldl_cons, Binary64.ofNat_add_one (by omega), ih (by omega),
      Nat.add_right_comm, Nat.add_assoc]

/-- The mean of ones is one in floating-point numbers too, unless they are too many to be
counted. -/
theorem mean_replicate_float_one {n : Nat} (hn : n ≠ 0) (hb : n < 2 ^ 53) :
    mean (List.replicate n (1.0 : Float)) = 1.0 := by
  have hsum : (List.replicate n (1.0 : Float)).foldl (· + ·) (Float.ofNat 0) = Float.ofNat n := by
    rw [foldl_add_ones (by omega), Nat.zero_add]
  have hzero : (0.0 : Float) = Float.ofNat 0 := rfl
  change (List.replicate n (1.0 : Float)).foldl (· + ·) 0.0 / Float.ofNat _ = 1.0
  rw [hzero, hsum, List.length_replicate, Binary64.ofNat_div_self hn hb]

end Score

/-! ### Scores -/

namespace Expr

variable {a : Expr} {as bs : List Expr}

/-- Induction with a hypothesis for every argument; quantified terms are not entered. -/
theorem induction_args {motive : Expr → Prop}
    (step : ∀ e : Expr, (∀ a ∈ e.args, motive a) → motive e) (e : Expr) : motive e := by
  induction e using Expr.induction with
  | var | int | real | truth | bound | quant => exact step _ (by simp [args])
  | app op as ih => exact step _ ih

theorem forall_mem_zipWith {α : Type} {f : Expr → Expr → α} {P : α → Prop}
    (h : ∀ a ∈ as, ∀ b, P (f a b)) : ∀ x ∈ List.zipWith f as bs, P x := by
  intro x hx
  obtain ⟨i, hi, rfl⟩ := List.getElem_of_mem hx
  rw [List.getElem_zipWith]
  exact h _ (List.getElem_mem _) _

theorem isCompound_iff : a.isCompound = true ↔ ∃ op b bs, a = app op (b :: bs) := by
  unfold isCompound
  split <;> simp_all

section

variable {α : Type} [Score α]

theorem similaritiesAs_eq_zipWith (as bs : List Expr) :
    similaritiesAs α as bs = List.zipWith (similarityAs α) as bs := by
  induction as generalizing bs with
  | nil => rfl
  | cons a as ih =>
    cases bs with
    | nil => rfl
    | cons b bs => rw [similaritiesAs, ih, List.zipWith_cons_cons]

/-- Two compound terms are compared by operator, number of arguments and arguments, and all others
by equality. -/
theorem similarityAs_eq (α : Type) [Score α] (a b : Expr) :
    similarityAs α a b =
      if a.isCompound = true ∧ b.isCompound = true then
        if a.operator? = b.operator? ∧ a.args.length = b.args.length then
          Score.mean (List.zipWith (similarityAs α) a.args b.args)
        else Score.zero
      else if a = b then Score.one else Score.zero := by
  rw [similarityAs.eq_def]
  split
  · simp [isCompound, args, similaritiesAs_eq_zipWith]
  · rename_i h
    refine (if_neg ?_).symm
    rintro ⟨ha, hb⟩
    obtain ⟨f, c, as, rfl⟩ := isCompound_iff.1 ha
    obtain ⟨g, d, bs, rfl⟩ := isCompound_iff.1 hb
    exact h f c as g d bs rfl rfl

/-- Terms do not agree, or they are equal, or they are applications of one operator to as many
arguments, and agree as far as these do. -/
theorem similarityAs_cases (α : Type) [Score α] (a b : Expr) :
    (similarityAs α a b = Score.zero ∧ a ≠ b) ∨ (similarityAs α a b = Score.one ∧ a = b) ∨
      ∃ f as g bs, a = app f as ∧ b = app g bs ∧ as ≠ [] ∧
        operator? (app f as) = operator? (app g bs) ∧ as.length = bs.length ∧
        similarityAs α a b = Score.mean (List.zipWith (similarityAs α) as bs) := by
  have h := similarityAs_eq α a b
  by_cases hcompound : a.isCompound = true ∧ b.isCompound = true
  · rw [if_pos hcompound] at h
    obtain ⟨f, c, as, rfl⟩ := isCompound_iff.1 hcompound.1
    obtain ⟨g, d, bs, rfl⟩ := isCompound_iff.1 hcompound.2
    split at h
    · rename_i hop
      exact .inr (.inr ⟨f, c :: as, g, d :: bs, rfl, rfl, List.cons_ne_nil c as, hop.1, hop.2, h⟩)
    · rename_i hop
      refine .inl ⟨h, fun heq => hop ?_⟩
      exact ⟨congrArg operator? heq, congrArg (fun e => e.args.length) heq⟩
  · rw [if_neg hcompound] at h
    by_cases heq : a = b
    · exact .inr (.inl ⟨h.trans (if_pos heq), heq⟩)
    · exact .inl ⟨h.trans (if_neg heq), heq⟩

theorem similarityAs_comm (a b : Expr) : similarityAs α a b = similarityAs α b a := by
  induction a using induction_args generalizing b with
  | step a ih =>
    have hargs : List.zipWith (similarityAs α) a.args b.args =
        List.zipWith (similarityAs α) b.args a.args := by
      refine List.ext_getElem (by simp [Nat.min_comm]) fun i hi hi' => ?_
      rw [List.getElem_zipWith, List.getElem_zipWith]
      exact ih _ (List.getElem_mem _) _
    simp only [similarityAs_eq α a b, similarityAs_eq α b a, hargs, and_comm, eq_comm]

/-- What zero, one and the means of such scores have in common holds of every score. -/
theorem similarityAs_of_mean {P : α → Prop} (zero : P Score.zero) (one : P Score.one)
    (mean : ∀ xs, (∀ x ∈ xs, P x) → P (Score.mean xs)) (a b : Expr) : P (similarityAs α a b) := by
  induction a using induction_args generalizing b with
  | step a ih =>
    obtain ⟨h, -⟩ | ⟨h, -⟩ | ⟨f, as, g, bs, rfl, rfl, -, -, -, h⟩ := similarityAs_cases α a b
    · rwa [h]
    · rwa [h]
    · rw [h]
      exact mean _ (forall_mem_zipWith ih)

/-- A term agrees fully with itself if at each of its nodes the mean of as many ones as there are
arguments is one. -/
theorem similarityAs_self
    (h : ∀ n ∈ a.nodes, n.args ≠ [] →
      Score.mean (List.replicate n.args.length (Score.one : α)) = Score.one) :
    similarityAs α a a = Score.one := by
  induction a using induction_args with
  | step a ih =>
    obtain ⟨-, hne⟩ | ⟨hone, -⟩ | ⟨f, as, g, bs, rfl, heq, hne, -, -, hmean⟩ :=
      similarityAs_cases α a a
    · exact absurd rfl hne
    · exact hone
    · obtain ⟨rfl, rfl⟩ := app.inj heq
      have hargs : ∀ c ∈ as, similarityAs α c c = Score.one :=
        fun c hc => ih c hc fun n hn => h n (mem_nodes_arg hc hn)
      rw [hmean, List.zipWith_self, List.map_congr_left hargs, List.map_const']
      exact h _ (mem_nodes_self _) hne

end

theorem exactSimilarity_nonneg (a b : Expr) : 0 ≤ a.exactSimilarity b :=
  similarityAs_of_mean (P := ((0 : Rat) ≤ ·)) le_rfl zero_le_one (fun _ => Score.mean_nonneg) a b

theorem exactSimilarity_le_one (a b : Expr) : a.exactSimilarity b ≤ 1 :=
  similarityAs_of_mean (P := (· ≤ (1 : Rat))) zero_le_one le_rfl (fun _ => Score.mean_le_one) a b

theorem exactSimilarity_self (a : Expr) : a.exactSimilarity a = 1 :=
  similarityAs_self fun _ _ hne => Score.mean_replicate_one (mt List.length_eq_zero_iff.1 hne)

theorem similarity_self (h : ∀ n ∈ a.nodes, n.args.length < 2 ^ 53) : a.similarity a = 1.0 :=
  similarityAs_self fun n hn hne =>
    Score.mean_replicate_float_one (mt List.length_eq_zero_iff.1 hne) (h n hn)

end Expr

/-! ### Operators -/

namespace Op

variable {f g : Op}

/-- The operators that are no functions. -/
def builtins : List Op :=
  [.add, .mul, .sub, .neg, .div, .idiv, .mod, .toReal, .toInt, .isInt, .pow, .le, .ge, .lt, .gt,
    .eq, .distinct, .ite, .and, .or, .xor, .not, .implies]

theorem mem_builtins (f : Op) : f ∈ builtins ∨ ∃ name domain range, f = .fn name domain range := by
  cases f with
  | fn name domain range => exact .inr ⟨name, domain, range, rfl⟩
  | _ => exact .inl (by decide)

/-- Only functions have a family in common. -/
theorem eq_or_fn_of_kind_eq (h : f.kind = g.kind) :
    f = g ∨ (∃ name domain range, f = .fn name domain range) ∧
      ∃ name domain range, g = .fn name domain range := by
  have hinj : ∀ f ∈ builtins, ∀ g ∈ builtins, f.kind = g.kind → f = g := by decide
  have hfn : ∀ f ∈ builtins, f.kind ≠ 49167 := by decide
  rcases mem_builtins f with hf | ⟨name, domain, range, rfl⟩ <;>
    rcases mem_builtins g with hg | ⟨name', domain', range', rfl⟩
  · exact .inl (hinj f hf g hg h)
  · exact absurd h (hfn f hf)
  · exact absurd h.symm (hfn g hg)
  · exact .inr ⟨⟨_, _, _, rfl⟩, _, _, _, rfl⟩

end Op

namespace Expr

variable {a b : Expr} {f g : Op} {as : List Expr}

/-- The function symbol at the root of a term: its name, the sorts of its arguments and that of
its result. -/
def symbol? : Expr → Option (String × List Srt × Srt)
  | .app (.fn name domain range) _ => some (name, domain, range)
  | _ => none

/-- Functions of two terms that have the name and the sorts of the arguments in common have the
sort of the result in common. -/
def SignaturesAgree (a b : Expr) : Prop :=
  ∀ f ∈ a.nodes.filterMap symbol?, ∀ g ∈ b.nodes.filterMap symbol?,
    f.1 = g.1 → f.2.1 = g.2.1 → f.2.2 = g.2.2

instance (a b : Expr) : Decidable (SignaturesAgree a b) :=
  inferInstanceAs (Decidable (∀ f ∈ a.nodes.filterMap symbol?, ∀ g ∈ b.nodes.filterMap symbol?,
    f.1 = g.1 → f.2.1 = g.2.1 → f.2.2 = g.2.2))

theorem SignaturesAgree.mono {c d : Expr} (h : SignaturesAgree a b) (hc : c ∈ a.nodes)
    (hd : d ∈ b.nodes) : SignaturesAgree c d := by
  have hsub {x y : Expr} (hx : x ∈ y.nodes) :
      x.nodes.filterMap symbol? ⊆ y.nodes.filterMap symbol? :=
    List.filterMap_subset _ fun n hn => mem_nodes_trans hn hx
  exact fun f hf g hg => h f (hsub hc hf) g (hsub hd hg)

/-- The operator of a well-sorted application is known by its family and name and the arguments,
up to the sort of the result of a function. -/
theorem eq_of_operator?_eq (hf : (app f as).wellSorted = true) (hg : (app g as).wellSorted = true)
    (has : as ≠ []) (hop : operator? (app f as) = operator? (app g as))
    (hsig : SignaturesAgree (app f as) (app g as)) : f = g := by
  obtain ⟨a, as, rfl⟩ := List.exists_cons_of_ne_nil has
  obtain ⟨hkind, hname⟩ := Operator.mk.inj (Option.some.inj hop)
  obtain heq | ⟨⟨name, domain, range, rfl⟩, name', domain', range', rfl⟩ :=
    Op.eq_or_fn_of_kind_eq hkind
  · exact heq
  · have hdomain : domain = domain' := by
      have hmap := (domain_of_wellSorted hf).trans (domain_of_wellSorted hg).symm
      exact List.map_injective_iff.2 (fun _ _ => Ty.base.inj) hmap
    have hrange : range = range' :=
      hsig (name, domain, range) (List.mem_filterMap.2 ⟨_, mem_nodes_self _, rfl⟩)
        (name', domain', range') (List.mem_filterMap.2 ⟨_, mem_nodes_self _, rfl⟩) hname hdomain
    rw [hdomain, hrange, show name = name' from hname]

theorem eq_of_exactSimilarity (ha : a.wellSorted = true) (hb : b.wellSorted = true)
    (hsig : SignaturesAgree a b) (h : a.exactSimilarity b = 1) : a = b := by
  induction a using induction_args generalizing b with
  | step a ih =>
    obtain ⟨hzero, -⟩ | ⟨-, heq⟩ | ⟨f, as, g, bs, rfl, rfl, hne, hop, hlength, hmean⟩ :=
      similarityAs_cases Rat a b
    · exact absurd (hzero.symm.trans h) (by decide)
    · exact heq
    · have hones : ∀ x ∈ List.zipWith (similarityAs Rat) as bs, x = 1 :=
        Score.eq_one_of_mean (forall_mem_zipWith fun a _ b => exactSimilarity_le_one a b)
          (hmean.symm.trans h)
      have hargs : as = bs := by
        refine List.ext_getElem hlength fun i hi hi' => ?_
        have hone := hones _ (List.getElem_mem (n := i) (by simp [hi, hi']))
        rw [List.getElem_zipWith] at hone
        have hi := List.getElem_mem hi
        have hi' := List.getElem_mem hi'
        exact ih _ hi (wellSorted_of_mem_args ha hi) (wellSorted_of_mem_args hb hi')
          (hsig.mono (mem_nodes_of_mem_args hi) (mem_nodes_of_mem_args hi')) hone
      subst hargs
      rw [eq_of_operator?_eq ha hb hne hop hsig]

/-- In exact arithmetic two terms agree fully only if they are equal. -/
theorem exactSimilarity_eq_one_iff (ha : a.wellSorted = true) (hb : b.wellSorted = true)
    (hsig : SignaturesAgree a b) : a.exactSimilarity b = 1 ↔ a = b := by
  constructor
  · exact eq_of_exactSimilarity ha hb hsig
  · rintro rfl
    exact exactSimilarity_self a

/-- **The score measures equality.**  In exact arithmetic all scores lie between zero and one, two
terms agree as far in either order, and a term agrees fully with itself.  Of well-sorted terms in
which a function's name and the sorts of its arguments tell the sort of its result, only equal ones
agree fully. -/
theorem exactSimilarity_measures_equality (a b : Expr) :
    0 ≤ a.exactSimilarity b ∧ a.exactSimilarity b ≤ 1 ∧
      a.exactSimilarity b = b.exactSimilarity a ∧ a.exactSimilarity a = 1 ∧
      (a.wellSorted = true → b.wellSorted = true → SignaturesAgree a b →
        (a.exactSimilarity b = 1 ↔ a = b)) :=
  ⟨exactSimilarity_nonneg a b, exactSimilarity_le_one a b, similarityAs_comm a b,
    exactSimilarity_self a, exactSimilarity_eq_one_iff⟩

/-- Of `f (x + y) * 2` and `f (x + z) * 2` one factor agrees fully and the other by one half. -/
theorem exactSimilarity_measures_equality_calls :
    let f (a : Expr) : Expr := .app (.fn "f" [.int] .int) [a]
    let a : Expr := .app .mul [f (.app .add [.var "x" .int, .var "y" .int]), .int 2]
    let b : Expr := .app .mul [f (.app .add [.var "x" .int, .var "z" .int]), .int 2]
    a.wellSorted = true ∧ b.wellSorted = true ∧ SignaturesAgree a b ∧
      b.exactSimilarity a = 3 / 4 ∧ a ≠ b := by
  intro f a b
  obtain ⟨-, -, hcomm, -, hone⟩ := exactSimilarity_measures_equality a b
  have ha : a.wellSorted = true := by decide
  have hb : b.wellSorted = true := by decide
  have hsig : SignaturesAgree a b := by decide
  have hscore : a.exactSimilarity b = 3 / 4 := by decide +kernel
  refine ⟨ha, hb, hsig, hcomm.symm.trans hscore, fun heq => ?_⟩
  rw [(hone ha hb hsig).2 heq] at hscore
  exact absurd hscore (by norm_num)

/-- Two functions of one name that differ in the sort of their results are not told apart. -/
example :
    let f (range : Srt) : Expr := .app (.fn "f" [.int] range) [.var "x" .int]
    (f .int).exactSimilarity (f .real) = 1 ∧ f .int ≠ f .real := by decide +kernel

end Expr

end Deduce

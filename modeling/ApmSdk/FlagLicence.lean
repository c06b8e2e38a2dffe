import ApmSdk.LabelledPath

namespace ApmSdk

/-!
# A flag that licenses one use

Some moves of a system need a flag, grants raise it, and spending lowers it.
When every use spends, each use of a path is licensed by a grant of its own: one
that came after everything spent before it.
-/

/--
The rules of a licence flag: only a grant raises it, no other move that spends
leaves it raised, and a use finds it raised and spends it.
-/
structure LicenceRules
    {State Label : Type*}
    (step : State → Label → State → Prop)
    (raised : State → Bool)
    (isGrant isSpend isUse : Move State Label → Bool) : Prop where
  onlyGrantRaises :
    ∀ {source label target},
      step source label target →
      isGrant ⟨source, label, target⟩ = false →
      raised target = true →
        raised source = true ∧ isSpend ⟨source, label, target⟩ = false
  useIsLicensed :
    ∀ {source label target},
      step source label target →
      isUse ⟨source, label, target⟩ = true →
        raised source = true
  useSpends :
    ∀ {move}, isUse move = true → isSpend move = true

namespace LicenceRules

variable {State Label : Type*}
variable {step : State → Label → State → Prop}
variable {raised : State → Bool}
variable {isGrant isSpend isUse : Move State Label → Bool}
variable {initial final : State}
variable {moves : List (Move State Label)}

/--
A flag that is raised at the end was raised from the start on, or by a grant
after which nothing has been spent.
-/
theorem raised_or_exists_grant
    (rules : LicenceRules step raised isGrant isSpend isUse)
    (path : Path step initial moves final)
    (atEnd : raised final = true) :
    (raised initial = true ∧ ∀ move ∈ moves, isSpend move = false) ∨
      ∃ (earlier : List (Move State Label)) (grant : Move State Label)
          (later : List (Move State Label)),
        moves = earlier ++ grant :: later ∧ isGrant grant = true ∧
          ∀ move ∈ later, isSpend move = false := by
  induction path with
  | nil state =>
      exact .inl ⟨atEnd, by simp⟩
  | @cons first second last label rest head tail inductionHypothesis =>
      rcases inductionHypothesis atEnd with
        ⟨raisedNext, unspent⟩ | ⟨earlier, grant, later, shape, granted, unspent⟩
      · cases granted : isGrant ⟨first, label, second⟩ with
        | true =>
            exact .inr ⟨[], _, rest, rfl, granted, unspent⟩
        | false =>
            obtain ⟨raisedFirst, keeps⟩ :=
              rules.onlyGrantRaises head granted raisedNext
            exact .inl
              ⟨raisedFirst, List.forall_mem_cons.mpr ⟨keeps, unspent⟩⟩
      · refine
          .inr ⟨⟨first, label, second⟩ :: earlier, grant, later, ?_,
            granted, unspent⟩
        rw [shape, List.cons_append]

/--
On a path that begins with the flag down, every use comes after a grant with
nothing spent between them.
-/
theorem exists_grant_of_use
    (rules : LicenceRules step raised isGrant isSpend isUse)
    (down : raised initial = false)
    {before after : List (Move State Label)}
    {use : Move State Label}
    (path : Path step initial (before ++ use :: after) final)
    (used : isUse use = true) :
    ∃ (earlier : List (Move State Label)) (grant : Move State Label)
        (later : List (Move State Label)),
      before = earlier ++ grant :: later ∧ isGrant grant = true ∧
        ∀ move ∈ later, isSpend move = false := by
  obtain ⟨between, leading, trailing⟩ := path.split
  cases trailing with
  | cons label head tail =>
      have licensed := rules.useIsLicensed head used
      rcases rules.raised_or_exists_grant leading licensed with
        ⟨raisedInitially, -⟩ | found
      · rw [down] at raisedInitially
        cases raisedInitially
      · exact found

/-- One move uses no more than it is granted or finds. -/
theorem use_le_grant
    (rules : LicenceRules step raised isGrant isSpend isUse)
    {source target : State}
    {label : Label}
    (taken : step source label target) :
    (isUse ⟨source, label, target⟩).toNat + (raised target).toNat ≤
      (isGrant ⟨source, label, target⟩).toNat + (raised source).toNat := by
  cases granted : isGrant ⟨source, label, target⟩ with
  | true =>
      cases used : isUse ⟨source, label, target⟩ with
      | true =>
          rw [rules.useIsLicensed taken used]
          exact Nat.add_le_add_left (Bool.toNat_le _) 1
      | false =>
          rw [Bool.toNat_false, Nat.zero_add]
          exact Nat.le_trans (Bool.toNat_le _) (Nat.le_add_right 1 _)
  | false =>
      cases up : raised target with
      | true =>
          obtain ⟨found, unspent⟩ :=
            rules.onlyGrantRaises taken granted up
          cases used : isUse ⟨source, label, target⟩ with
          | true =>
              rw [rules.useSpends used] at unspent
              cases unspent
          | false =>
              simp [found]
      | false =>
          cases used : isUse ⟨source, label, target⟩ with
          | true => simp [rules.useIsLicensed taken used]
          | false => simp

/-- The first move counts as the test is for it. -/
theorem countP_cons_eq_toNat
    (test : Move State Label → Bool)
    (move : Move State Label)
    (rest : List (Move State Label)) :
    (move :: rest).countP test = rest.countP test + (test move).toNat := by
  rw [List.countP_cons]
  cases test move with
  | false => rfl
  | true => rfl

/-- A path never uses more than it has been granted. -/
theorem countP_use_le_countP_grant
    (rules : LicenceRules step raised isGrant isSpend isUse)
    (path : Path step initial moves final) :
    moves.countP isUse + (raised final).toNat ≤
      moves.countP isGrant + (raised initial).toNat := by
  induction path with
  | nil state =>
      simp
  | @cons first second last label rest head tail inductionHypothesis =>
      have one := rules.use_le_grant head
      rw [countP_cons_eq_toNat, countP_cons_eq_toNat]
      omega

/-- Between two grants there is at most one use. -/
theorem countP_use_le_one
    (rules : LicenceRules step raised isGrant isSpend isUse)
    {before between after : List (Move State Label)}
    (path : Path step initial (before ++ (between ++ after)) final)
    (ungranted : ∀ move ∈ between, isGrant move = false) :
    between.countP isUse ≤ 1 := by
  obtain ⟨start, -, trailing⟩ := path.split
  obtain ⟨finish, segment, -⟩ := trailing.split
  have none_granted : between.countP isGrant = 0 := by
    rw [List.countP_eq_zero]
    intro move member granted
    rw [ungranted move member] at granted
    cases granted
  have counted := rules.countP_use_le_countP_grant segment
  have atStart : (raised start).toNat ≤ 1 := Bool.toNat_le _
  omega

end LicenceRules

end ApmSdk

import Mathlib

/-!
# Runs of a state machine and properties of their steps

A machine is a start state and a step function; a run is the list of its inputs, in order.
Properties of a run's steps are predicates on the inputs that came before and the input of
the step, so that they may speak of the whole history. `run_induction` is the rule every
invariant below goes through: an invariant of the start state that each step keeps, under
a condition on the step, holds after every run whose steps all meet that condition. What a
property says of the past of a run, and the machine has forgotten, a history variable keeps.
-/

namespace ThoriumFrugal.Lib

variable {σ ι : Type*}

/-- A place in a run that ends with `z` is the end, or a place in what comes before. -/
theorem split_concat {xs past rest : List ι} {x z : ι} (h : xs ++ [z] = past ++ x :: rest) :
    (xs = past ∧ z = x ∧ rest = []) ∨ ∃ more, rest = more ++ [z] ∧ xs = past ++ x :: more := by
  rcases List.eq_nil_or_concat rest with rfl | ⟨more, y, rfl⟩
  · obtain ⟨hpast, hx⟩ := List.append_inj' h rfl
    exact .inl ⟨hpast, List.singleton_inj.mp hx, rfl⟩
  · rw [List.concat_eq_append, ← List.cons_append, ← List.append_assoc] at h
    obtain ⟨hpast, hy⟩ := List.append_inj' h rfl
    exact .inr ⟨more, by rw [List.concat_eq_append, List.singleton_inj.mp hy], hpast⟩

/-- `P` holds at every step of the run `xs`: of each input and the inputs before it. -/
def Along (P : List ι → ι → Prop) (xs : List ι) : Prop :=
  ∀ past x rest, xs = past ++ x :: rest → P past x

section Along

variable {P Q : List ι → ι → Prop} {xs : List ι} {x : ι}

theorem along_congr (h : ∀ past x, P past x ↔ Q past x) : Along P xs ↔ Along Q xs :=
  forall_congr' fun past => forall_congr' fun x => forall_congr' fun _ =>
    imp_congr_right fun _ => h past x

theorem along_nil : Along P [] := fun past x rest h => by simp at h

theorem along_concat : Along P (xs ++ [x]) ↔ Along P xs ∧ P xs x := by
  constructor
  · intro h
    refine ⟨fun past y rest e => h past y (rest ++ [x]) (by simp [e]), ?_⟩
    exact h xs x [] rfl
  · rintro ⟨hxs, hx⟩ past y rest e
    rcases split_concat e with ⟨rfl, rfl, -⟩ | ⟨more, -, hpast⟩
    · exact hx
    · exact hxs past y more hpast

theorem Along.left {ys : List ι} (h : Along P (xs ++ ys)) : Along P xs :=
  fun past y rest e => h past y (rest ++ ys) (by simp [e])

/-- What a step keeps exactly under a condition holds after all inputs of a run exactly if its
steps all meet the condition. -/
theorem forall_prefix_iff_along {C : List ι → Prop} (h0 : C [])
    (hstep : ∀ past x, C past → (C (past ++ [x]) ↔ P past x)) (xs : List ι) :
    (∀ past, past <+: xs → C past) ↔ Along P xs := by
  induction xs using List.reverseRecOn with
  | nil =>
    refine iff_of_true (fun past hpast => ?_) along_nil
    rw [List.prefix_nil.mp hpast]
    exact h0
  | append_singleton xs x ih =>
    rw [along_concat, ← ih]
    constructor
    · intro h
      have hbefore : ∀ past, past <+: xs → C past :=
        fun past hpast => h past (hpast.trans ⟨[x], rfl⟩)
      exact ⟨hbefore, (hstep xs x (hbefore xs List.prefix_rfl)).mp (h _ List.prefix_rfl)⟩
    · rintro ⟨hbefore, hx⟩ past hpast
      rcases List.prefix_concat_iff.mp hpast with rfl | hpast
      · exact (hstep xs x (hbefore xs List.prefix_rfl)).mpr hx
      · exact hbefore past hpast

/-- What holds after some inputs of a run holds at its start, or some step brings it about. -/
theorem exists_prefix_iff {C : List ι → Prop} :
    (∃ past, past <+: xs ∧ C past)
      ↔ C [] ∨ ∃ past x rest, xs = past ++ x :: rest ∧ ¬C past ∧ C (past ++ [x]) := by
  constructor
  · rintro ⟨past, hpast, hC⟩
    -- the last input of `past`, or an earlier one
    induction past using List.reverseRecOn with
    | nil => exact .inl hC
    | append_singleton past x ih =>
      by_cases hbefore : C past
      · exact ih (List.IsPrefix.trans ⟨[x], rfl⟩ hpast) hbefore
      · obtain ⟨rest, hrest⟩ := hpast
        exact .inr ⟨past, x, rest, by rw [← hrest, List.append_assoc]; rfl, hbefore, hC⟩
  · rintro (hC | ⟨past, x, rest, rfl, -, hC⟩)
    · exact ⟨[], ⟨xs, rfl⟩, hC⟩
    · exact ⟨past ++ [x], ⟨rest, by rw [List.append_assoc]; rfl⟩, hC⟩

end Along

/-- The state after a run. -/
def run (step : σ → ι → σ) (s : σ) (xs : List ι) : σ := xs.foldl step s

section Run

variable {step : σ → ι → σ} {s : σ}

@[simp] theorem run_nil : run step s [] = s := rfl

@[simp] theorem run_cons (x : ι) (xs : List ι) :
    run step s (x :: xs) = run step (step s x) xs := rfl

@[simp] theorem run_concat (xs : List ι) (x : ι) :
    run step s (xs ++ [x]) = step (run step s xs) x := by
  simp [run]

theorem run_append (xs ys : List ι) :
    run step s (xs ++ ys) = run step (run step s xs) ys := by
  simp [run]

/-- The induction over runs. `I` may mention the inputs so far. -/
theorem run_induction {C : List ι → ι → Prop} {I : List ι → σ → Prop} (h0 : I [] s)
    (hstep : ∀ past x, I past (run step s past) → C past x →
      I (past ++ [x]) (step (run step s past) x))
    {xs : List ι} (hxs : Along C xs) : I xs (run step s xs) := by
  -- from the end of the run: its last input is the step that `hstep` covers
  induction xs using List.reverseRecOn with
  | nil => exact h0
  | append_singleton past x ih =>
    obtain ⟨hpast, hx⟩ := along_concat.mp hxs
    rw [run_concat]
    exact hstep past x (ih hpast) hx

/-- The same for invariants that every step keeps. -/
theorem run_invariant {I : List ι → σ → Prop} (h0 : I [] s)
    (hstep : ∀ past x, I past (run step s past) →
      I (past ++ [x]) (step (run step s past) x)) (xs : List ι) :
    I xs (run step s xs) :=
  run_induction (C := fun _ _ => True) h0 (fun past x h _ => hstep past x h)
    fun _ _ _ _ => trivial

end Run

/-! ## Moments -/

/-- The steps that come after `past`, each with all inputs before it. -/
def momentsFrom (past : List ι) : List ι → List (List ι × ι)
  | [] => []
  | x :: xs => (past, x) :: momentsFrom (past ++ [x]) xs

/-- The steps of a run, each with the inputs before it. -/
def moments (xs : List ι) : List (List ι × ι) := momentsFrom [] xs

section Moments

variable {xs past : List ι} {x : ι}

theorem momentsFrom_concat (past xs : List ι) (x : ι) :
    momentsFrom past (xs ++ [x]) = momentsFrom past xs ++ [(past ++ xs, x)] := by
  induction xs generalizing past with
  | nil => rw [List.nil_append, List.append_nil]; rfl
  | cons y xs ih =>
    rw [List.cons_append, momentsFrom, ih, momentsFrom, List.append_assoc]
    rfl

theorem moments_concat (xs : List ι) (x : ι) :
    moments (xs ++ [x]) = moments xs ++ [(xs, x)] := momentsFrom_concat [] xs x

theorem mem_moments_iff : (past, x) ∈ moments xs ↔ ∃ rest, xs = past ++ x :: rest := by
  induction xs using List.reverseRecOn with
  | nil => simp [moments, momentsFrom]
  | append_singleton xs z ih =>
    rw [moments_concat, List.mem_append, ih, List.mem_singleton, Prod.mk.injEq]
    constructor
    · rintro (⟨rest, rfl⟩ | ⟨rfl, rfl⟩)
      · exact ⟨rest ++ [z], by simp⟩
      · exact ⟨[], rfl⟩
    · rintro ⟨rest, hrest⟩
      rcases split_concat hrest with ⟨rfl, rfl, -⟩ | ⟨more, -, rfl⟩
      · exact .inr ⟨rfl, rfl⟩
      · exact .inl ⟨more, rfl⟩

theorem exists_mem_left {α β : Type*} {R : α → β → Prop} {as : List α} {bs : List β} {b : β}
    (h : List.Forall₂ R as bs) (hb : b ∈ bs) : ∃ a ∈ as, R a b := by
  induction h with
  | nil => cases hb
  | cons hR _ ih =>
    rcases List.mem_cons.mp hb with rfl | hb
    · exact ⟨_, List.mem_cons_self, hR⟩
    · obtain ⟨a, ha, hab⟩ := ih hb
      exact ⟨a, List.mem_cons_of_mem _ ha, hab⟩

end Moments

/-! ## History variables -/

section History

variable {γ : Type*} (step : σ → ι → σ) (note : σ → γ → ι → γ) (s : σ) (g : γ)

/-- A step of the machine and of a variable that notes what it needs from the state before the
step and from the input. -/
def noted (p : σ × γ) (x : ι) : σ × γ := (step p.1 x, note p.1 p.2 x)

/-- The variable after a run. -/
def history (xs : List ι) : γ := (run (noted step note) (s, g) xs).2

/-- The variable does not influence the machine. -/
theorem run_noted (xs : List ι) :
    run (noted step note) (s, g) xs = (run step s xs, history step note s g xs) := by
  have hfst : (run (noted step note) (s, g) xs).1 = run step s xs := by
    induction xs using List.reverseRecOn with
    | nil => rfl
    | append_singleton xs x ih =>
      rw [run_concat, run_concat, ← ih]
      rfl
  exact Prod.ext hfst rfl

@[simp] theorem history_nil : history step note s g [] = g := rfl

theorem history_concat (xs : List ι) (x : ι) :
    history step note s g (xs ++ [x])
      = note (run step s xs) (history step note s g xs) x := by
  rw [history, run_concat, run_noted]
  rfl

variable {step note s g}

/-- The induction over runs with a history variable. -/
theorem history_induction {C : List ι → ι → Prop} {I : List ι → σ → γ → Prop} (h0 : I [] s g)
    (hstep : ∀ past x, I past (run step s past) (history step note s g past) → C past x →
      I (past ++ [x]) (step (run step s past) x)
        (note (run step s past) (history step note s g past) x))
    {xs : List ι} (hxs : Along C xs) : I xs (run step s xs) (history step note s g xs) := by
  have hrun : I xs (run (noted step note) (s, g) xs).1 (run (noted step note) (s, g) xs).2 := by
    refine run_induction (I := fun past (p : σ × γ) => I past p.1 p.2) h0 ?_ hxs
    intro past x hinv hx
    rw [run_noted] at hinv ⊢
    exact hstep past x hinv hx
  rw [run_noted] at hrun
  exact hrun

/-- The same for invariants that every step keeps. -/
theorem history_invariant {I : List ι → σ → γ → Prop} (h0 : I [] s g)
    (hstep : ∀ past x, I past (run step s past) (history step note s g past) →
      I (past ++ [x]) (step (run step s past) x)
        (note (run step s past) (history step note s g past) x)) (xs : List ι) :
    I xs (run step s xs) (history step note s g xs) :=
  history_induction (C := fun _ _ => True) h0 (fun past x h _ => hstep past x h)
    fun _ _ _ _ => trivial

end History

/-! ## What a run gives -/

section Gathered

variable {β : Type*} (step : σ → ι → σ) (given given' : σ → ι → List β) (s : σ)

/-- Everything that the steps of a run give, in order. -/
def gathered (xs : List ι) : List β := history step (fun s all x => all ++ given s x) s [] xs

variable {step given given' s} {xs : List ι} {b : β}

@[simp] theorem gathered_nil : gathered step given s [] = [] := rfl

theorem gathered_concat (xs : List ι) (x : ι) :
    gathered step given s (xs ++ [x])
      = gathered step given s xs ++ given (run step s xs) x := history_concat ..

theorem mem_gathered_iff :
    b ∈ gathered step given s xs
      ↔ ∃ past x rest, xs = past ++ x :: rest ∧ b ∈ given (run step s past) x := by
  induction xs using List.reverseRecOn with
  | nil => simp
  | append_singleton xs z ih =>
    rw [gathered_concat, List.mem_append, ih]
    constructor
    · rintro (⟨past, x, rest, rfl, hb⟩ | hb)
      · exact ⟨past, x, rest ++ [z], by simp, hb⟩
      · exact ⟨xs, z, [], rfl, hb⟩
    · rintro ⟨past, x, rest, hsplit, hb⟩
      rcases split_concat hsplit with ⟨rfl, rfl, -⟩ | ⟨more, -, rfl⟩
      · exact .inr hb
      · exact .inl ⟨past, x, more, rfl, hb⟩

/-- Steps that give less give a part. -/
theorem gathered_sublist (h : ∀ s x, (given s x).Sublist (given' s x)) (xs : List ι) :
    (gathered step given s xs).Sublist (gathered step given' s xs) := by
  induction xs using List.reverseRecOn with
  | nil => exact List.Sublist.refl _
  | append_singleton xs x ih =>
    rw [gathered_concat, gathered_concat]
    exact ih.append (h _ x)

end Gathered

/-! ## Since -/

/-- `A` held at some step of the run, and `B` at every step after it. -/
def Since (A B : List ι → ι → Prop) (xs : List ι) : Prop :=
  ∃ past x rest, xs = past ++ x :: rest ∧ A past x
    ∧ ∀ mid y more, rest = mid ++ y :: more → B (past ++ x :: mid) y

section Since

variable {A B : List ι → ι → Prop} {xs : List ι} {z : ι}

theorem not_since_nil : ¬Since A B [] := by
  rintro ⟨past, x, rest, h, -⟩
  simp at h

theorem since_concat : Since A B (xs ++ [z]) ↔ A xs z ∨ Since A B xs ∧ B xs z := by
  constructor
  · rintro ⟨past, x, rest, hxs, hx, hrest⟩
    rcases split_concat hxs with ⟨rfl, rfl, -⟩ | ⟨more, rfl, rfl⟩
    · exact .inl hx
    · refine .inr ⟨⟨past, x, more, rfl, hx, fun mid y tail hmid => ?_⟩, hrest more z [] rfl⟩
      exact hrest mid y (tail ++ [z]) (by rw [hmid]; simp)
  · rintro (hz | ⟨⟨past, x, rest, rfl, hx, hrest⟩, hz⟩)
    · exact ⟨xs, z, [], rfl, hz, fun mid y more h => by simp at h⟩
    · refine ⟨past, x, rest ++ [z], by simp, hx, fun mid y more hmid => ?_⟩
      rcases split_concat hmid with ⟨rfl, rfl, -⟩ | ⟨tail, -, hrest'⟩
      · exact hz
      · exact hrest mid y tail hrest'

variable {β : Type*} {step : σ → ι → σ} {s : σ}

/-- A variable that collects what the steps give, and starts over at some of them. -/
theorem mem_history_iff {keeps : σ → ι → Prop} [∀ s x, Decidable (keeps s x)]
    {given : σ → ι → List β} {b : β} :
    b ∈ history step (fun s g x => (if keeps s x then g else []) ++ given s x) s [] xs
      ↔ Since (fun past x => b ∈ given (run step s past) x)
          (fun past x => keeps (run step s past) x) xs := by
  induction xs using List.reverseRecOn with
  | nil => simp [not_since_nil]
  | append_singleton xs z ih =>
    rw [history_concat, since_concat, List.mem_append, ← ih, or_comm]
    refine or_congr_right ?_
    by_cases hkeeps : keeps (run step s xs) z
    · simp [hkeeps]
    · simp [hkeeps]

/-- A cell that is empty at first and overwritten by some of the steps. -/
theorem read_run_eq_some_iff (read : σ → Option β) {write : σ → ι → Option β}
    (h0 : read s = none)
    (hstep : ∀ past x, read (step (run step s past) x)
      = (write (run step s past) x).or (read (run step s past))) {b : β} :
    read (run step s xs) = some b
      ↔ Since (fun past x => write (run step s past) x = some b)
          (fun past x => write (run step s past) x = none) xs := by
  induction xs using List.reverseRecOn with
  | nil => simp [h0, not_since_nil]
  | append_singleton xs z ih =>
    rw [run_concat, hstep, since_concat, ← ih]
    cases write (run step s xs) z with
    | none => simp
    | some c => simp

end Since

end ThoriumFrugal.Lib

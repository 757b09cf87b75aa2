import ThoriumFrugal.Lib.Labels

/-!
# Position-based programs that may fault

The operations of a string and a vector class with the conditions on their arguments: a slice
starts inside the text, an index is one of the vector's, a length is no difference below zero, a
position is that of a search that has succeeded. A program over them returns or names the fault.
Loops run on fuel, and running out of it is a fault too; so a program that returns has terminated.

Each operation has one lemma: it returns what the total operation of `Text` does, under its
condition. The loops have lemmas of the same kind, with the fuel that is enough.
-/

namespace ThoriumFrugal.Lib

/-- The faults of a checked access. -/
inductive Fault
  | outOfRange
  | negativeLength
  | noPosition
  | emptyText
  | outOfFuel
deriving DecidableEq

/-- The outcome of a program that may fault. -/
abbrev Faulty := Except Fault

namespace Faulty

variable {α β σ : Type}

@[simp] theorem ok_bind (a : α) (f : α → Faulty β) : ((.ok a : Faulty α) >>= f) = f a := rfl

@[simp] theorem pure_eq (a : α) : (pure a : Faulty α) = .ok a := rfl

/-! ## Operations -/

/-- `a - b` of an unsigned type. -/
def sub (a b : ℕ) : Faulty ℕ := if b ≤ a then .ok (a - b) else .error .negativeLength

/-- The result of a search, used as a position. -/
def position (found : Option ℕ) : Faulty ℕ :=
  match found with
  | some pos => .ok pos
  | none => .error .noPosition

/-- `s.substr(pos, n)`. -/
def substr (s : Text) (pos n : ℕ) : Faulty Text :=
  if pos ≤ s.length then .ok (s.substr pos n) else .error .outOfRange

/-- `s.substr(pos)`. -/
def substrFrom (s : Text) (pos : ℕ) : Faulty Text :=
  if pos ≤ s.length then .ok (s.drop pos) else .error .outOfRange

/-- `xs[i]`. -/
def index (xs : List α) (i : ℕ) : Faulty α :=
  match xs[i]? with
  | some x => .ok x
  | none => .error .outOfRange

/-- `s.back()`. -/
def back (s : Text) : Faulty Char :=
  match s.getLast? with
  | some c => .ok c
  | none => .error .emptyText

/-- `s.pop_back()`. -/
def popBack (s : Text) : Faulty Text := if s = [] then .error .emptyText else .ok s.dropLast

/-- `if (s.back() == '.') s.pop_back()`. -/
def dropFinalDot (s : Text) : Faulty Text := do
  let last ← back s
  if last = '.' then popBack s else return s

section

variable {s : Text} {pos n : ℕ}

theorem sub_ok {a b : ℕ} (h : b ≤ a) : sub a b = .ok (a - b) := if_pos h

theorem substr_ok (h : pos ≤ s.length) : substr s pos n = .ok (s.substr pos n) := if_pos h

theorem substrFrom_ok (h : pos ≤ s.length) : substrFrom s pos = .ok (s.drop pos) := if_pos h

/-- The front of a text can always be cut off. -/
theorem substr_zero (s : Text) (n : ℕ) : substr s 0 n = .ok (s.take n) :=
  substr_ok (Nat.zero_le _)

theorem index_ok {xs : List α} {i : ℕ} {x : α} (h : xs[i]? = some x) : index xs i = .ok x := by
  unfold index
  rw [h]

theorem back_ok {c : Char} (h : s.getLast? = some c) : back s = .ok c := by
  unfold back
  rw [h]

theorem popBack_ok (h : s ≠ []) : popBack s = .ok s.dropLast := if_neg h

theorem dropFinalDot_ok (h : s ≠ []) : dropFinalDot s = .ok s.dropFinalDot := by
  have hlast := List.getLast?_eq_some_getLast h
  unfold dropFinalDot Text.dropFinalDot
  rw [back_ok hlast, ok_bind, hlast, popBack_ok h, pure_eq]
  simp only [Option.some.injEq]
  split <;> rfl

end

/-! ## Loops over a list -/

/-- A loop whose body never faults is the fold of what its body computes. -/
theorem foldlM_ok {body : σ → α → Faulty σ} {f : σ → α → σ} (xs : List α)
    (h : ∀ state, ∀ x ∈ xs, body state x = .ok (f state x)) (state : σ) :
    xs.foldlM body state = .ok (xs.foldl f state) := by
  induction xs generalizing state with
  | nil => rfl
  | cons x xs ih =>
    rw [List.foldlM_cons, h state x List.mem_cons_self, ok_bind, List.foldl_cons]
    exact ih (fun state y hy => h state y (List.mem_cons_of_mem x hy)) (f state x)

/-- The same for a search that stops at its first hit. -/
theorem anyM_ok {body : α → Faulty Bool} {p : α → Bool} (xs : List α)
    (h : ∀ x ∈ xs, body x = .ok (p x)) : xs.anyM body = .ok (xs.any p) := by
  induction xs with
  | nil => rfl
  | cons x xs ih =>
    rw [List.anyM, h x List.mem_cons_self, ok_bind, List.any_cons]
    cases p x with
    | true => rfl
    | false => exact ih fun y hy => h y (List.mem_cons_of_mem x hy)

/-- A loop that appends what it keeps. -/
theorem foldl_append_filter (p : α → Bool) (xs kept : List α) :
    xs.foldl (fun kept x => if p x then kept ++ [x] else kept) kept = kept ++ xs.filter p := by
  induction xs generalizing kept with
  | nil => simp
  | cons x xs ih =>
    rw [List.foldl_cons, ih, List.filter_cons]
    split <;> simp

/-! ## Splitting -/

/-- The loop of `Split`. -/
def splitLoop (s : Text) (delim : Char) :
    ℕ → List Text → ℕ → Option ℕ → Faulty (List Text)
  | fuel + 1, tokens, start, some stop => do
    let token ← substr s start (← sub stop start)
    splitLoop s delim fuel (tokens ++ [token]) (stop + 1) (Text.find s delim (stop + 1))
  | _, tokens, start, none => do
    let token ← substrFrom s start
    return tokens ++ [token]
  | 0, _, _, some _ => .error .outOfFuel

/-- The pieces of a text between delimiters. -/
def split (s : Text) (delim : Char) : Faulty (List Text) :=
  splitLoop s delim s.length [] 0 (Text.find s delim 0)

theorem splitLoop_ok (s : Text) (delim : Char) (fuel : ℕ) (tokens : List Text) (start : ℕ)
    (hstart : start ≤ s.length) (hfuel : s.length - start ≤ fuel) :
    splitLoop s delim fuel tokens start (Text.find s delim start)
      = .ok (tokens ++ (s.drop start).splitOn delim) := by
  -- each round goes past one delimiter
  induction fuel generalizing tokens start with
  | zero =>
    have hnil : s.drop start = [] := List.drop_eq_nil_of_le (by omega)
    rw [Text.find_of_not_mem_drop (by simp [hnil])]
    simp [splitLoop, substrFrom_ok hstart, hnil]
  | succ fuel ih =>
    cases hfind : Text.find s delim start with
    | none =>
      rw [List.splitOn_eq_singleton (Text.not_mem_of_find_eq_none hfind)]
      simp [splitLoop, substrFrom_ok hstart]
    | some stop =>
      obtain ⟨a, b, hdrop, ha, rfl⟩ := Text.exists_of_find_eq_some hfind
      have hlen : s.length - start = a.length + (b.length + 1) := by
        rw [← List.length_drop, hdrop, List.length_append, List.length_cons]
      have hnext : s.drop (start + a.length + 1) = b := by
        rw [Nat.add_assoc, ← List.drop_drop, hdrop, ← List.singleton_append, ← List.append_assoc]
        exact List.drop_left' (by simp)
      have htoken : s.substr start (start + a.length - start) = a := by
        unfold Text.substr
        rw [hdrop, Nat.add_sub_cancel_left, List.take_left]
      unfold splitLoop
      rw [sub_ok (Nat.le_add_right _ _), ok_bind, substr_ok hstart, ok_bind, htoken,
        ih _ _ (by omega) (by omega), hnext, hdrop,
        List.splitOn_append_cons_self_of_not_mem ha, List.append_assoc, List.singleton_append]

theorem split_ok (s : Text) (delim : Char) : split s delim = .ok (s.splitOn delim) :=
  splitLoop_ok s delim s.length [] 0 (Nat.zero_le _) (by simp)

/-! ## Reading lines -/

/-- `while (std::getline(ss, line, delim)) body`, from the rest of the stream on. -/
def forLines (delim : Char) (body : σ → Text → Faulty σ) : ℕ → σ → Text → Faulty σ
  | _, state, [] => .ok state
  | fuel + 1, state, rest => do
    let state ← body state (rest.takeWhile (· ≠ delim))
    forLines delim body fuel state ((rest.dropWhile (· ≠ delim)).drop 1)
  | 0, _, _ => .error .outOfFuel

/-- The loop runs over the lines, and one round for each character is enough. -/
theorem forLines_eq (delim : Char) (body : σ → Text → Faulty σ) (fuel : ℕ) (state : σ)
    (rest : Text) (hfuel : rest.length ≤ fuel) :
    forLines delim body fuel state rest = (Text.getlines rest delim).foldlM body state := by
  induction fuel generalizing state rest with
  | zero =>
    rw [List.eq_nil_of_length_eq_zero (Nat.le_zero.mp hfuel)]
    rfl
  | succ fuel ih =>
    cases rest with
    | nil => rfl
    | cons c rest =>
      have hshort : (((c :: rest).dropWhile (· ≠ delim)).drop 1).length ≤ fuel := by
        have hsuffix := (List.dropWhile_suffix (l := c :: rest) (· ≠ delim)).length_le
        simp only [List.length_drop, List.length_cons] at hsuffix hfuel ⊢
        omega
      rw [Text.getlines_of_ne_nil delim (List.cons_ne_nil c rest), List.foldlM_cons]
      unfold forLines
      exact bind_congr fun state => ih state _ hshort

/-! ## Joining -/

/-- The loop that joins the items of a vector by index, with a separator in front of each but
the first. -/
def join (sep : Text) (ts : List Text) : Faulty Text :=
  (List.range ts.length).foldlM (fun joined i => do
    let t ← index ts i
    return (if i > 0 then joined ++ sep else joined) ++ t) []

theorem join_ok (sep : Text) (ts : List Text) : join sep ts = .ok (Text.join sep ts) := by
  unfold join
  -- after `n` rounds the first `n` items are joined
  have hrounds : ∀ n ≤ ts.length, (List.range n).foldlM (fun joined i => do
      let t ← index ts i
      return (if i > 0 then joined ++ sep else joined) ++ t) []
        = .ok (Text.join sep (ts.take n)) := by
    intro n
    induction n with
    | zero => intro _; rfl
    | succ n ih =>
      intro hn
      have hitem : ts[n]? = some ts[n] := List.getElem?_eq_getElem hn
      have hfirst : ts.take n = [] ↔ n = 0 := by
        rw [List.take_eq_nil_iff]
        exact or_iff_left (List.ne_nil_of_length_pos (by omega))
      rw [List.range_succ, List.foldlM_append, ih (by omega), ok_bind, List.foldlM_cons,
        index_ok hitem, ← List.take_concat_get' ts n hn, Text.join_concat]
      simp only [ok_bind, pure_eq, List.foldlM_nil, hfirst]
      by_cases hn0 : n = 0
      · subst hn0
        rfl
      · rw [if_pos (Nat.pos_of_ne_zero hn0), if_neg hn0]
  rw [hrounds ts.length le_rfl, List.take_length]

/-! ## Trimming -/

/-- `s.find_first_not_of(cs)`. -/
def findFirstNotOf (s cs : Text) : Option ℕ := s.findIdx? (!cs.contains ·)

/-- `s.find_last_not_of(cs)`. -/
def findLastNotOf (s cs : Text) : Option ℕ :=
  (s.reverse.findIdx? (!cs.contains ·)).map (s.length - 1 - ·)

/-- `Trim`. -/
def trim (s cs : Text) : Faulty Text :=
  match findFirstNotOf s cs with
  | none => .ok []
  | some first => do
    let last ← position (findLastNotOf s cs)
    let n ← sub last first
    substr s first (n + 1)

/-- A text with a character that is kept, up to the last one and behind it. -/
theorem exists_last_kept {s cs : Text} {x : Char} (hmem : x ∈ s) (hx : (!cs.contains x) = true) :
    ∃ d y c, s = d ++ y :: c ∧ (!cs.contains y) = true ∧ ∀ z ∈ c, cs.contains z = true := by
  obtain ⟨k, hk⟩ : ∃ k, s.reverse.findIdx? (!cs.contains ·) = some k := by
    rw [← Option.isSome_iff_exists, List.findIdx?_isSome, List.any_eq_true]
    exact ⟨x, by simpa using hmem, hx⟩
  obtain ⟨c, y, d, hrev, -, hy, hc⟩ := Text.exists_of_findIdx?_eq_some hk
  refine ⟨d.reverse, y, c.reverse, ?_, hy, fun z hz => ?_⟩
  · rw [← List.reverse_reverse s, hrev]
    simp
  · simpa using hc z (List.mem_reverse.mp hz)

section

variable {a cs : Text} {x : Char} {b : Text}

theorem findLastNotOf_append_cons (hx : (!cs.contains x) = true)
    (hb : ∀ z ∈ b, cs.contains z = true) : findLastNotOf (a ++ x :: b) cs = some a.length := by
  have hrev : (a ++ x :: b).reverse = b.reverse ++ x :: a.reverse := by simp
  have hblanks : ∀ z ∈ b.reverse, (!cs.contains z) = false := by
    intro z hz
    rw [hb z (List.mem_reverse.mp hz)]
    rfl
  unfold findLastNotOf
  rw [hrev, Text.findIdx?_append_cons _ hblanks hx, Option.map_some, Option.some.injEq,
    List.length_append, List.length_cons, List.length_reverse]
  omega

theorem dropWhile_append_cons (ha : ∀ z ∈ a, cs.contains z = true)
    (hx : (!cs.contains x) = true) : (a ++ x :: b).dropWhile (cs.contains ·) = x :: b := by
  rw [List.dropWhile_append_of_pos ha]
  exact List.dropWhile_cons_of_neg (by simpa using hx)

end

theorem trim_ok (s cs : Text) : trim s cs = .ok (s.trim cs) := by
  unfold trim Text.trim
  cases hfirst : findFirstNotOf s cs with
  | none =>
    have hall : ∀ c ∈ s, cs.contains c = true := by
      intro c hc
      have hblank := List.findIdx?_eq_none_iff.mp hfirst c hc
      simpa using hblank
    rw [List.dropWhile_eq_nil_iff.mpr hall]
    rfl
  | some first =>
    obtain ⟨a, x, b, rfl, rfl, hx, ha⟩ := Text.exists_of_findIdx?_eq_some hfirst
    obtain ⟨d, y, c, hsplit, hy, hc⟩ := exists_last_kept (s := x :: b) List.mem_cons_self hx
    have hlast : findLastNotOf (a ++ x :: b) cs = some (a.length + d.length) := by
      rw [hsplit, ← List.append_assoc, findLastNotOf_append_cons hy hc, List.length_append]
    have hfront : (a ++ x :: b).dropWhile (cs.contains ·) = x :: b :=
      dropWhile_append_cons (fun z hz => by simpa using ha z hz) hx
    have hback : (x :: b).reverse.dropWhile (cs.contains ·) = y :: d.reverse := by
      rw [hsplit, List.reverse_append, List.reverse_cons, List.append_assoc]
      exact dropWhile_append_cons (fun z hz => hc z (List.mem_reverse.mp hz)) hy
    have hcut : Text.substr (a ++ x :: b) a.length (a.length + d.length - a.length + 1)
        = (y :: d.reverse).reverse := by
      unfold Text.substr
      rw [List.drop_left, Nat.add_sub_cancel_left, hsplit]
      simp [List.take_append]
    rw [hlast, hfront, hback]
    simp only [position, ok_bind]
    rw [sub_ok (Nat.le_add_right _ _), ok_bind, substr_ok (by simp), hcut]

end Faulty
end ThoriumFrugal.Lib

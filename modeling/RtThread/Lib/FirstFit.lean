import Mathlib

/-!
# Free runs of cells

The free cells of a store, kept as a list of runs in the order of their places. A run of a given length is taken from the first one that is long enough; a run that is put back is joined with those that it touches.
-/

namespace FirstFit

structure Run where
  start : Nat
  len : Nat
  deriving DecidableEq

variable {r : Run} {rs rs' : List Run} {lo hi a b k n : Nat}

def Covers (rs : List Run) (k : Nat) : Prop := ∃ r ∈ rs, r.start ≤ k ∧ k < r.start + r.len

@[simp] theorem covers_nil : ¬ Covers [] k := fun ⟨_, hr, _⟩ => List.not_mem_nil hr

@[simp] theorem covers_cons : Covers (r :: rs) k ↔ (r.start ≤ k ∧ k < r.start + r.len) ∨ Covers rs k := by
  simp [Covers]

/-- From `lo` on the runs are in order, none is empty, and between two of them there is a cell that is not free. -/
def Separate : Nat → List Run → Prop
  | _, [] => True
  | lo, r :: rs => lo ≤ r.start ∧ 0 < r.len ∧ Separate (r.start + r.len + 1) rs

namespace Separate

theorem mono (h : Separate lo rs) {lo' : Nat} (hle : lo' ≤ lo) : Separate lo' rs := by
  cases rs with
  | nil => trivial
  | cons r rs => exact ⟨Nat.le_trans hle h.1, h.2⟩

theorem bounds (h : Separate lo rs) (hr : r ∈ rs) : lo ≤ r.start ∧ 0 < r.len := by
  induction rs generalizing lo with
  | nil => cases hr
  | cons r' rs ih =>
    obtain ⟨hlo, hlen, hrest⟩ := h
    rcases List.mem_cons.1 hr with rfl | hr
    · exact ⟨hlo, hlen⟩
    · have := ih hrest hr
      exact ⟨by omega, this.2⟩

theorem le_of_covers (h : Separate lo rs) (hk : Covers rs k) : lo ≤ k := by
  obtain ⟨r, hr, hle, -⟩ := hk
  exact Nat.le_trans (h.bounds hr).1 hle

theorem pairwise (h : Separate lo rs) : rs.Pairwise fun r r' => r.start + r.len < r'.start := by
  induction rs generalizing lo with
  | nil => exact .nil
  | cons r rs ih => exact List.pairwise_cons.2 ⟨fun r' hr' => (h.2.2.bounds hr').1, ih h.2.2⟩

theorem length_le (h : Separate lo rs) (hhi : ∀ r ∈ rs, r.start < hi) : rs.length ≤ hi - lo := by
  induction rs generalizing lo with
  | nil => exact Nat.zero_le _
  | cons r rs ih =>
    have hfirst := hhi r List.mem_cons_self
    have hrest := ih h.2.2 fun r' hr' => hhi r' (List.mem_cons_of_mem r hr')
    have hlo := h.1
    have hlen := h.2.1
    rw [List.length_cons]
    omega

end Separate

/-! ## Taking -/

/-- The first run of at least `n` cells gives its first `n` cells. -/
def take (n : Nat) : List Run → Option (Nat × List Run)
  | [] => none
  | r :: rs =>
    if n < r.len then some (r.start, ⟨r.start + n, r.len - n⟩ :: rs)
    else if r.len = n then some (r.start, rs)
    else (take n rs).map fun t => (t.1, r :: t.2)

theorem take_start (n : Nat) (rs : List Run) : (take n rs).map Prod.fst = (rs.find? fun r => n ≤ r.len).map Run.start := by
  induction rs with
  | nil => rfl
  | cons r rs ih =>
    rw [take]
    split_ifs with hlong hexact
    · have hfits : decide (n ≤ r.len) = true := decide_eq_true (Nat.le_of_lt hlong)
      simp only [List.find?_cons, hfits, Option.map_some]
    · have hfits : decide (n ≤ r.len) = true := decide_eq_true (Nat.le_of_eq hexact.symm)
      simp only [List.find?_cons, hfits, Option.map_some]
    · have hshort : decide (n ≤ r.len) = false := decide_eq_false (by omega)
      simp only [List.find?_cons, hshort, Option.map_map, ← ih]
      rfl

theorem Separate.take (h : Separate lo rs) (hn : 0 < n) (htake : take n rs = some (b, rs')) :
    Separate lo rs' ∧ lo ≤ b ∧ (∀ k, Covers rs k ↔ Covers rs' k ∨ b ≤ k ∧ k < b + n) ∧
      ∀ k, Covers rs' k → k < b ∨ b + n ≤ k := by
  induction rs generalizing lo rs' with
  | nil => cases htake
  | cons r rs ih =>
    obtain ⟨hlo, hlen, hrest⟩ := h
    rw [FirstFit.take] at htake
    split_ifs at htake with hlong hexact
    · obtain ⟨rfl, rfl⟩ := Prod.mk.inj (Option.some.inj htake)
      have hend : r.start + n + (r.len - n) + 1 = r.start + r.len + 1 := by omega
      refine ⟨⟨by dsimp only; omega, by dsimp only; omega, hend ▸ hrest⟩, hlo, fun k => ?_, fun k hk => ?_⟩
      · rw [covers_cons, covers_cons]
        dsimp only
        by_cases hk : Covers rs k
        · simp only [hk, or_true, true_or]
        · simp only [hk, or_false]
          omega
      · rcases covers_cons.1 hk with hk | hk
        · dsimp only at hk
          omega
        · have := hrest.le_of_covers hk
          omega
    · obtain ⟨rfl, rfl⟩ := Prod.mk.inj (Option.some.inj htake)
      refine ⟨hrest.mono (by omega), hlo, fun k => ?_, fun k hk => ?_⟩
      · rw [covers_cons, hexact, or_comm]
      · have := hrest.le_of_covers hk
        omega
    · obtain ⟨⟨b', rs''⟩, htake', heq⟩ := Option.map_eq_some_iff.1 htake
      obtain ⟨rfl, rfl⟩ := Prod.mk.inj heq
      obtain ⟨hkept, hb, hcovers, hapart⟩ := ih hrest htake'
      refine ⟨⟨hlo, hlen, hkept⟩, by omega, fun k => ?_, fun k hk => ?_⟩
      · rw [covers_cons, covers_cons, hcovers, or_assoc]
      · rcases covers_cons.1 hk with hk | hk
        · dsimp only at hb
          omega
        · exact hapart k hk

/-! ## Putting back -/

def joinNext (b n : Nat) : List Run → List Run
  | [] => [⟨b, n⟩]
  | r :: rs => if b + n = r.start then ⟨b, n + r.len⟩ :: rs else ⟨b, n⟩ :: r :: rs

/-- The `n` cells from `a` on become free. -/
def put (a n : Nat) : List Run → List Run
  | [] => [⟨a, n⟩]
  | r :: rs =>
    if r.start + r.len = a then joinNext r.start (r.len + n) rs
    else if r.start = a + n then ⟨a, r.len + n⟩ :: rs
    else if a + n < r.start then ⟨a, n⟩ :: r :: rs
    else r :: put a n rs

theorem covers_joinNext : Covers (joinNext b n rs) k ↔ (b ≤ k ∧ k < b + n) ∨ Covers rs k := by
  cases rs with
  | nil => simp [joinNext]
  | cons r rs =>
    rw [joinNext]
    split_ifs with hjoin
    · rw [covers_cons, covers_cons]
      dsimp only
      by_cases hk : Covers rs k
      · simp only [hk, or_true]
      · simp only [hk, or_false]
        omega
    · rw [covers_cons]

theorem Separate.joinNext (hrest : Separate (b + n) rs) (hlo : lo ≤ b) (hn : 0 < n) : Separate lo (joinNext b n rs) := by
  cases rs with
  | nil => exact ⟨hlo, hn, trivial⟩
  | cons r rs =>
    obtain ⟨hstart, hlen, hrest⟩ := hrest
    rw [FirstFit.joinNext]
    split_ifs with hjoin
    · have hend : b + (n + r.len) + 1 = r.start + r.len + 1 := by omega
      exact ⟨hlo, by dsimp only; omega, hend ▸ hrest⟩
    · exact ⟨hlo, hn, by dsimp only; omega, hlen, hrest⟩

theorem Separate.put (h : Separate lo rs) (hlo : lo ≤ a) (hn : 0 < n) (hapart : ∀ k, Covers rs k → k < a ∨ a + n ≤ k) :
    Separate lo (put a n rs) ∧ ∀ k, Covers (put a n rs) k ↔ Covers rs k ∨ a ≤ k ∧ k < a + n := by
  induction rs generalizing lo with
  | nil => exact ⟨⟨hlo, hn, trivial⟩, fun k => by simp [FirstFit.put]⟩
  | cons r rs ih =>
    obtain ⟨hfirst, hlen, hrest⟩ := h
    have hapart' : ∀ k, Covers rs k → k < a ∨ a + n ≤ k := fun k hk => hapart k (covers_cons.2 (.inr hk))
    have hhead := hapart r.start (covers_cons.2 (.inl ⟨Nat.le_refl _, by omega⟩))
    have hself : ¬ (r.start ≤ a ∧ a < r.start + r.len) := fun hk => by
      have := hapart a (covers_cons.2 (.inl hk))
      omega
    rw [FirstFit.put]
    split_ifs with hbefore hbehind hbelow
    · -- the next run begins behind the cells that are put back
      have hnext : Separate (r.start + (r.len + n)) rs := by
        cases rs with
        | nil => trivial
        | cons r' rs =>
          obtain ⟨hstart, hlen', hrest'⟩ := hrest
          have := hapart' r'.start (covers_cons.2 (.inl ⟨Nat.le_refl _, by omega⟩))
          exact ⟨by omega, hlen', hrest'⟩
      refine ⟨hnext.joinNext hfirst (by omega), fun k => ?_⟩
      rw [covers_joinNext, covers_cons]
      by_cases hk : Covers rs k
      · simp only [hk, or_true, true_or]
      · simp only [hk, or_false]
        omega
    · have hend : a + (r.len + n) + 1 = r.start + r.len + 1 := by omega
      refine ⟨⟨hlo, by dsimp only; omega, hend ▸ hrest⟩, fun k => ?_⟩
      rw [covers_cons, covers_cons]
      dsimp only
      by_cases hk : Covers rs k
      · simp only [hk, or_true, true_or]
      · simp only [hk, or_false]
        omega
    · refine ⟨⟨hlo, hn, by dsimp only; omega, hlen, hrest⟩, fun k => ?_⟩
      rw [covers_cons, or_comm]
    · obtain ⟨hkept, hcovers⟩ := ih hrest (by omega) hapart'
      refine ⟨⟨hfirst, hlen, hkept⟩, fun k => ?_⟩
      rw [covers_cons, covers_cons, hcovers, or_assoc]

end FirstFit

import Mathlib.Order.Bounds.Basic
import Mathlib.Logic.Function.Basic
import Mathlib.Tactic.Cases

/-! Depth-first search of a graph with three colours, which gives up at an edge back into
its own path and at a depth beyond a cap. A node is not searched again, so the depth it is
given is that of the first path to it. -/

namespace Vici2

namespace DepthFirst

variable {α : Type*} {succ : α → List α}

/-- A walk of so many edges. -/
inductive Walk (succ : α → List α) : α → α → Nat → Prop
  | refl (u : α) : Walk succ u u 0
  | step {u v w : α} {n : Nat} (hv : v ∈ succ u) (h : Walk succ v w n) : Walk succ u w (n + 1)

def Reach (succ : α → List α) (u v : α) : Prop := ∃ n, Walk succ u v n

def OnCycle (succ : α → List α) (u : α) : Prop := ∃ n, Walk succ u u (n + 1)

/-- A walk that takes, at each node, the first edge from which its end can be reached. -/
inductive FirstPath (succ : α → List α) : α → α → Nat → Prop
  | refl (u : α) : FirstPath succ u u 0
  | step {u c v : α} {n : Nat} {before after : List α} (hsplit : succ u = before ++ c :: after)
      (hbefore : ∀ b ∈ before, ¬ Reach succ b v) (h : FirstPath succ c v n) :
      FirstPath succ u v (n + 1)

theorem Walk.trans {u v w : α} {m n : Nat} (h : Walk succ u v m) (h' : Walk succ v w n) :
    Walk succ u w (m + n) := by
  induction h with
  | refl u => simpa using h'
  | @step u v x m hv _ ih =>
    have hstep := Walk.step hv (ih h')
    rwa [show m + 1 + n = m + n + 1 by omega]

theorem Reach.refl (u : α) : Reach succ u u := ⟨0, .refl u⟩

theorem Reach.trans {u v w : α} (h : Reach succ u v) (h' : Reach succ v w) : Reach succ u w := by
  obtain ⟨m, hm⟩ := h
  obtain ⟨n, hn⟩ := h'
  exact ⟨m + n, hm.trans hn⟩

theorem Reach.head {u v w : α} (hv : v ∈ succ u) (h : Reach succ v w) : Reach succ u w := by
  obtain ⟨n, hn⟩ := h
  exact ⟨n + 1, .step hv hn⟩

theorem reach_iff {u w : α} : Reach succ u w ↔ u = w ∨ ∃ v ∈ succ u, Reach succ v w := by
  constructor
  · rintro ⟨n, hn⟩
    cases hn with
    | refl => exact Or.inl rfl
    | step hv h => exact Or.inr ⟨_, hv, _, h⟩
  · rintro (rfl | ⟨v, hv, h⟩)
    · exact Reach.refl u
    · exact h.head hv

theorem onCycle_iff {u : α} : OnCycle succ u ↔ ∃ v ∈ succ u, Reach succ v u := by
  constructor
  · rintro ⟨n, hn⟩
    cases hn with
    | step hv h => exact ⟨_, hv, n, h⟩
  · rintro ⟨v, hv, n, hn⟩
    exact ⟨n, .step hv hn⟩

theorem FirstPath.walk {u v : α} {n : Nat} (h : FirstPath succ u v n) : Walk succ u v n := by
  induction h with
  | refl u => exact .refl u
  | step hsplit _ _ ih =>
    refine .step ?_ ih
    rw [hsplit]
    simp

/-- The first path to `v` from a list of nodes that are tried in turn. -/
def FirstFrom (succ : α → List α) (vs : List α) (v : α) (n : Nat) : Prop :=
  ∃ before c after, vs = before ++ c :: after ∧ (∀ b ∈ before, ¬ Reach succ b v) ∧
    FirstPath succ c v n

theorem firstPath_iff {u v : α} {n : Nat} :
    FirstPath succ u v n ↔ (u = v ∧ n = 0) ∨ ∃ m, n = m + 1 ∧ FirstFrom succ (succ u) v m := by
  constructor
  · intro h
    cases h with
    | refl => exact Or.inl ⟨rfl, rfl⟩
    | step hsplit hbefore h => exact Or.inr ⟨_, rfl, _, _, _, hsplit, hbefore, h⟩
  · rintro (⟨rfl, rfl⟩ | ⟨m, rfl, before, c, after, hsplit, hbefore, h⟩)
    · exact .refl u
    · exact .step hsplit hbefore h

theorem not_firstFrom_nil {v : α} {n : Nat} : ¬ FirstFrom succ [] v n := by
  rintro ⟨before, c, after, hsplit, -⟩
  simp at hsplit

theorem firstFrom_cons {c v : α} {vs : List α} {n : Nat} :
    FirstFrom succ (c :: vs) v n ↔
      FirstPath succ c v n ∨ (¬ Reach succ c v ∧ FirstFrom succ vs v n) := by
  constructor
  · rintro ⟨before, c', after, hsplit, hbefore, h⟩
    cases before with
    | nil =>
      obtain ⟨rfl, -⟩ := List.cons.inj hsplit
      exact Or.inl h
    | cons b before =>
      obtain ⟨rfl, hrest⟩ := List.cons.inj hsplit
      have hhead := hbefore c List.mem_cons_self
      exact Or.inr ⟨hhead, before, c', after, hrest,
        fun b hb => hbefore b (List.mem_cons_of_mem _ hb), h⟩
  · rintro (h | ⟨hhead, before, c', after, rfl, hbefore, h⟩)
    · exact ⟨[], c, vs, rfl, by simp, h⟩
    · refine ⟨c :: before, c', after, rfl, ?_, h⟩
      intro b hb
      rcases List.mem_cons.1 hb with rfl | hb
      · exact hhead
      · exact hbefore b hb

inductive Color
  | white
  | gray
  | black
  deriving DecidableEq, Repr

structure Marks (α : Type*) where
  color : α → Color
  deepest : Nat

def Marks.start : Marks α := ⟨fun _ => .white, 0⟩

inductive Halt (α : Type*)
  | back (u v : α)
  | deep (u : α)

variable {cap : Nat}

def Marks.paint [DecidableEq α] (s : Marks α) (u : α) (c : Color) : Marks α :=
  { s with color := Function.update s.color u c }

def scan (visit : α → Marks α → Except (Halt α) (Marks α)) (u : α) :
    List α → Marks α → Except (Halt α) (Marks α)
  | [], s => .ok s
  | v :: vs, s =>
    match s.color v with
    | .gray => .error (.back u v)
    | .white =>
      match visit v s with
      | .error e => .error e
      | .ok s => scan visit u vs s
    | .black => scan visit u vs s

/-- The search from a node at depth `cap + 1 - left`. -/
def visit [DecidableEq α] (succ : α → List α) (cap : Nat) :
    Nat → α → Marks α → Except (Halt α) (Marks α)
  | 0, u, _ => .error (.deep u)
  | left + 1, u, s =>
    match scan (visit succ cap left) u (succ u)
        { s.paint u .gray with deepest := max s.deepest (cap - left) } with
    | .error e => .error e
    | .ok s => .ok (s.paint u .black)

theorem isGreatest_insert_trans {S T : Set Nat} {a b c : Nat} (h : IsGreatest (insert a S) b)
    (h' : IsGreatest (insert b T) c) : IsGreatest (insert a (S ∪ T)) c := by
  have hbc : b ≤ c := h'.2 (Set.mem_insert b T)
  constructor
  · rcases h'.1 with rfl | hc
    · rcases h.1 with rfl | hb
      · exact Set.mem_insert _ _
      · exact Set.mem_insert_of_mem _ (Or.inl hb)
    · exact Set.mem_insert_of_mem _ (Or.inr hc)
  · rintro x (rfl | hx | hx)
    · exact (h.2 (Set.mem_insert _ S)).trans hbc
    · exact (h.2 (Set.mem_insert_of_mem _ hx)).trans hbc
    · exact h'.2 (Set.mem_insert_of_mem _ hx)

/-- A finished node leads to finished nodes only, and into no cycle. -/
structure Settled (succ : α → List α) (s : Marks α) : Prop where
  closed : ∀ u, s.color u = .black → ∀ v ∈ succ u, s.color v = .black
  acyclic : ∀ u, s.color u = .black → ¬ OnCycle succ u

theorem Settled.start : Settled succ (.start : Marks α) :=
  ⟨fun _ hv => (nomatch hv), fun _ hv => (nomatch hv)⟩

theorem Settled.reach {s : Marks α} (hs : Settled succ s) {u v : α} (hu : s.color u = .black)
    (h : Reach succ u v) : s.color v = .black := by
  obtain ⟨n, hn⟩ := h
  induction hn with
  | refl u => exact hu
  | step hv _ ih => exact ih (hs.closed _ hu _ hv)

/-- The depths that the nodes which are not finished in `s` get along the walks `A`. -/
def depths (s : Marks α) (depth : Nat) (A : α → Nat → Prop) : Set Nat :=
  { d | ∃ v n, s.color v ≠ .black ∧ A v n ∧ d = depth + n }

/-- From `s` to `s'` the nodes of `R` were finished, at the depths of the walks `A`. -/
structure Explored (succ : α → List α) (depth : Nat) (R : α → Prop) (A : α → Nat → Prop)
    (s s' : Marks α) : Prop where
  black : ∀ v, s'.color v = .black ↔ s.color v = .black ∨ R v
  gray : ∀ v, s'.color v = .gray ↔ s.color v = .gray
  settled : Settled succ s'
  deepest : IsGreatest (insert s.deepest (depths s depth A)) s'.deepest

/-- A cycle is ahead, or one of the walks `A` goes beyond the cap. -/
def Fault (succ : α → List α) (cap : Nat) (u : α) (depth : Nat) (A : α → Nat → Prop)
    (s : Marks α) : Prop :=
  (∃ v, Reach succ u v ∧ OnCycle succ v) ∨ ∃ d ∈ depths s depth A, cap < d

structure VisitSpec (succ : α → List α) (cap depth : Nat) (u : α) (s : Marks α)
    (r : Except (Halt α) (Marks α)) : Prop where
  ok : ∀ s', r = .ok s' → Explored succ depth (Reach succ u) (FirstPath succ u) s s' ∧
    (s.deepest ≤ cap → s'.deepest ≤ cap)
  error : ∀ e, r = .error e → Fault succ cap u depth (FirstPath succ u) s

structure ScanSpec (succ : α → List α) (cap depth : Nat) (u : α) (vs : List α) (s : Marks α)
    (r : Except (Halt α) (Marks α)) : Prop where
  ok : ∀ s', r = .ok s' →
    Explored succ depth (fun v => ∃ c ∈ vs, Reach succ c v) (FirstFrom succ vs) s s' ∧
      (s.deepest ≤ cap → s'.deepest ≤ cap)
  error : ∀ e, r = .error e → Fault succ cap u depth (FirstFrom succ vs) s

theorem Explored.nil {s : Marks α} (hs : Settled succ s) (depth : Nat) :
    Explored succ depth (fun v => ∃ c ∈ ([] : List α), Reach succ c v) (FirstFrom succ []) s s where
  black v := by simp
  gray v := Iff.rfl
  settled := hs
  deepest := by
    have hnone : depths s depth (FirstFrom succ []) = ∅ := by
      ext d
      simp [depths, not_firstFrom_nil]
    rw [hnone, insert_empty_eq]
    exact isGreatest_singleton

theorem depths_skip {s : Marks α} {depth : Nat} {c : α} {vs : List α} (hs : Settled succ s)
    (hc : s.color c = .black) :
    depths s depth (FirstFrom succ (c :: vs)) = depths s depth (FirstFrom succ vs) := by
  have hnot : ∀ v, s.color v ≠ .black → ¬ Reach succ c v := fun v hv h => hv (hs.reach hc h)
  ext d
  constructor
  · rintro ⟨v, n, hv, h, rfl⟩
    rcases firstFrom_cons.1 h with h | ⟨-, h⟩
    · exact absurd ⟨n, h.walk⟩ (hnot v hv)
    · exact ⟨v, n, hv, h, rfl⟩
  · rintro ⟨v, n, hv, h, rfl⟩
    exact ⟨v, n, hv, firstFrom_cons.2 (Or.inr ⟨hnot v hv, h⟩), rfl⟩

theorem depths_cons {s s₁ : Marks α} {depth : Nat} {c : α} {vs : List α}
    (hblack : ∀ v, s₁.color v = .black ↔ s.color v = .black ∨ Reach succ c v) :
    depths s depth (FirstFrom succ (c :: vs)) =
      depths s depth (FirstPath succ c) ∪ depths s₁ depth (FirstFrom succ vs) := by
  ext d
  constructor
  · rintro ⟨v, n, hv, h, rfl⟩
    rcases firstFrom_cons.1 h with h | ⟨hnot, h⟩
    · exact Or.inl ⟨v, n, hv, h, rfl⟩
    · have hv₁ : s₁.color v ≠ .black := fun hb => ((hblack v).1 hb).elim hv hnot
      exact Or.inr ⟨v, n, hv₁, h, rfl⟩
  · rintro (⟨v, n, hv, h, rfl⟩ | ⟨v, n, hv, h, rfl⟩)
    · exact ⟨v, n, hv, firstFrom_cons.2 (Or.inl h), rfl⟩
    · have hv' : s.color v ≠ .black := fun hb => hv ((hblack v).2 (Or.inl hb))
      have hnot : ¬ Reach succ c v := fun hr => hv ((hblack v).2 (Or.inr hr))
      exact ⟨v, n, hv', firstFrom_cons.2 (Or.inr ⟨hnot, h⟩), rfl⟩

theorem depths_firstPath {s s₁ : Marks α} {u : α} {depth : Nat} (hu : s.color u ≠ .black)
    (hblack : ∀ v, s₁.color v = .black ↔ s.color v = .black) :
    depths s depth (FirstPath succ u) =
      {depth} ∪ depths s₁ (depth + 1) (FirstFrom succ (succ u)) := by
  ext d
  constructor
  · rintro ⟨v, n, hv, h, rfl⟩
    rcases firstPath_iff.1 h with ⟨rfl, rfl⟩ | ⟨m, rfl, hfrom⟩
    · exact Or.inl rfl
    · exact Or.inr ⟨v, m, mt (hblack v).1 hv, hfrom, by omega⟩
  · rintro (rfl | ⟨v, n, hv, h, rfl⟩)
    · exact ⟨u, 0, hu, .refl u, rfl⟩
    · exact ⟨v, n + 1, mt (hblack v).2 hv, firstPath_iff.2 (Or.inr ⟨n, rfl, h⟩), by omega⟩

/-- A finished successor is passed over: nothing new is behind it. -/
theorem Explored.skip {s s' : Marks α} {depth : Nat} {c : α} {vs : List α} (hs : Settled succ s)
    (hc : s.color c = .black)
    (h : Explored succ depth (fun v => ∃ c ∈ vs, Reach succ c v) (FirstFrom succ vs) s s') :
    Explored succ depth (fun v => ∃ x ∈ c :: vs, Reach succ x v) (FirstFrom succ (c :: vs)) s s'
    where
  black v := by
    rw [h.black v]
    constructor
    · rintro (hv | ⟨x, hx, hr⟩)
      · exact Or.inl hv
      · exact Or.inr ⟨x, List.mem_cons_of_mem _ hx, hr⟩
    · rintro (hv | ⟨x, hx, hr⟩)
      · exact Or.inl hv
      · rcases List.mem_cons.1 hx with rfl | hx
        · exact Or.inl (hs.reach hc hr)
        · exact Or.inr ⟨x, hx, hr⟩
  gray := h.gray
  settled := h.settled
  deepest := by
    rw [depths_skip hs hc]
    exact h.deepest

theorem Explored.cons {s s₁ s' : Marks α} {depth : Nat} {c : α} {vs : List α}
    (h₁ : Explored succ depth (Reach succ c) (FirstPath succ c) s s₁)
    (h : Explored succ depth (fun v => ∃ c ∈ vs, Reach succ c v) (FirstFrom succ vs) s₁ s') :
    Explored succ depth (fun v => ∃ x ∈ c :: vs, Reach succ x v) (FirstFrom succ (c :: vs)) s s'
    where
  black v := by
    rw [h.black v, h₁.black v, or_assoc]
    simp
  gray v := (h.gray v).trans (h₁.gray v)
  settled := h.settled
  deepest := by
    rw [depths_cons h₁.black]
    exact isGreatest_insert_trans h₁.deepest h.deepest

theorem Fault.mono {u : α} {depth : Nat} {A A' : α → Nat → Prop} {s s' : Marks α}
    (h : Fault succ cap u depth A s) (hsub : depths s depth A ⊆ depths s' depth A') :
    Fault succ cap u depth A' s' := by
  rcases h with h | ⟨d, hd, hcap⟩
  · exact Or.inl h
  · exact Or.inr ⟨d, hsub hd, hcap⟩

theorem ScanSpec.nil {s : Marks α} (hs : Settled succ s) (depth : Nat) (u : α) :
    ScanSpec succ cap depth u [] s (.ok s) where
  ok s' h := by
    obtain rfl := Except.ok.inj h
    exact ⟨Explored.nil hs depth, id⟩
  error e h := nomatch h

/-- An edge back to a vertex under way closes a cycle with the path down from it. -/
theorem ScanSpec.back {s : Marks α} {depth : Nat} {u c : α} (vs : List α) (hc : c ∈ succ u)
    (hback : Reach succ c u) : ScanSpec succ cap depth u vs s (.error (.back u c)) where
  ok _ h := nomatch h
  error _ _ := Or.inl ⟨u, Reach.refl u, onCycle_iff.2 ⟨c, hc, hback⟩⟩

theorem ScanSpec.skip {s : Marks α} {depth : Nat} {u c : α} {vs : List α}
    {r : Except (Halt α) (Marks α)} (hs : Settled succ s) (hc : s.color c = .black)
    (h : ScanSpec succ cap depth u vs s r) : ScanSpec succ cap depth u (c :: vs) s r where
  ok s' hr := by
    obtain ⟨hex, hcap⟩ := h.ok s' hr
    exact ⟨hex.skip hs hc, hcap⟩
  error e hr := (h.error e hr).mono (depths_skip hs hc).ge

/-- A visit of the first successor that halts, halts the scan. -/
theorem ScanSpec.halt {s : Marks α} {depth : Nat} {u c : α} {e : Halt α} (vs : List α)
    (hc : c ∈ succ u) (hvisit : VisitSpec succ cap depth c s (.error e)) :
    ScanSpec succ cap depth u (c :: vs) s (.error e) where
  ok _ h := nomatch h
  error e' _ := by
    rcases hvisit.error e rfl with ⟨v, hreach, hcycle⟩ | ⟨d, ⟨v, n, hblack, hpath, rfl⟩, hcap⟩
    · exact Or.inl ⟨v, hreach.head hc, hcycle⟩
    · exact Or.inr ⟨_, ⟨v, n, hblack, firstFrom_cons.2 (Or.inl hpath), rfl⟩, hcap⟩

theorem ScanSpec.cons {s s₁ : Marks α} {depth : Nat} {u c : α} {vs : List α}
    {r : Except (Halt α) (Marks α)} (hvisit : VisitSpec succ cap depth c s (.ok s₁))
    (h : ScanSpec succ cap depth u vs s₁ r) : ScanSpec succ cap depth u (c :: vs) s r := by
  obtain ⟨hex₁, hcap₁⟩ := hvisit.ok s₁ rfl
  constructor
  · intro s' hr
    obtain ⟨hex, hcap⟩ := h.ok s' hr
    exact ⟨hex₁.cons hex, fun hle => hcap (hcap₁ hle)⟩
  · intro e hr
    refine (h.error e hr).mono ?_
    rw [depths_cons hex₁.black]
    exact Set.subset_union_right

theorem scan_spec {visit : α → Marks α → Except (Halt α) (Marks α)} {depth : Nat} {u : α}
    (hvisit : ∀ c ∈ succ u, ∀ s : Marks α, s.color c = .white → Settled succ s →
      (∀ g, s.color g = .gray → Reach succ g c) → VisitSpec succ cap depth c s (visit c s))
    (vs : List α) (hvs : ∀ c ∈ vs, c ∈ succ u) (s : Marks α) (hs : Settled succ s)
    (hgray : ∀ g, s.color g = .gray → Reach succ g u) :
    ScanSpec succ cap depth u vs s (scan visit u vs s) := by
  induction vs generalizing s with
  | nil => exact ScanSpec.nil hs depth u
  | cons c vs ih =>
    have hc : c ∈ succ u := hvs c List.mem_cons_self
    have hrest : ∀ c ∈ vs, c ∈ succ u := fun x hx => hvs x (List.mem_cons_of_mem _ hx)
    cases hcolor : s.color c with
    | gray =>
      have hr : scan visit u (c :: vs) s = .error (.back u c) := by
        simp only [scan, hcolor]
      rw [hr]
      exact ScanSpec.back _ hc (hgray c hcolor)
    | black =>
      have hr : scan visit u (c :: vs) s = scan visit u vs s := by
        simp only [scan, hcolor]
      rw [hr]
      exact (ih hrest s hs hgray).skip hs hcolor
    | white =>
      have hgrayc : ∀ g, s.color g = .gray → Reach succ g c :=
        fun g hg => (hgray g hg).trans (Reach.head hc (Reach.refl c))
      have hspec := hvisit c hc s hcolor hs hgrayc
      cases hv : visit c s with
      | error e =>
        have hr : scan visit u (c :: vs) s = .error e := by
          simp only [scan, hcolor, hv]
        rw [hv] at hspec
        rw [hr]
        exact ScanSpec.halt vs hc hspec
      | ok s₁ =>
        have hr : scan visit u (c :: vs) s = scan visit u vs s₁ := by
          simp only [scan, hcolor, hv]
        rw [hv] at hspec
        have hex₁ := (hspec.ok s₁ rfl).1
        have hgray₁ : ∀ g, s₁.color g = .gray → Reach succ g u :=
          fun g hg => hgray g ((hex₁.gray g).1 hg)
        rw [hr]
        exact ScanSpec.cons hspec (ih hrest s₁ hex₁.settled hgray₁)

/-- `s₁` is `s` after the search has come to `u`. -/
structure Entered (u : α) (depth : Nat) (s s₁ : Marks α) : Prop where
  self : s₁.color u = .gray
  other : ∀ v, v ≠ u → s₁.color v = s.color v
  deepest : s₁.deepest = max s.deepest depth

theorem Entered.black {s s₁ : Marks α} {u : α} {depth : Nat} (h : Entered u depth s s₁)
    (hu : s.color u = .white) (v : α) : s₁.color v = .black ↔ s.color v = .black := by
  by_cases hv : v = u
  · subst hv
    simp [h.self, hu]
  · rw [h.other v hv]

theorem Entered.settled {s s₁ : Marks α} {u : α} {depth : Nat} (h : Entered u depth s s₁)
    (hu : s.color u = .white) (hs : Settled succ s) : Settled succ s₁ where
  closed v hv w hw := (h.black hu w).2 (hs.closed v ((h.black hu v).1 hv) w hw)
  acyclic v hv := hs.acyclic v ((h.black hu v).1 hv)

theorem Entered.gray {s s₁ : Marks α} {u : α} {depth : Nat} (h : Entered u depth s s₁)
    (hgray : ∀ g, s.color g = .gray → Reach succ g u) :
    ∀ g, s₁.color g = .gray → Reach succ g u := by
  intro g hg
  by_cases hgu : g = u
  · rw [hgu]
    exact Reach.refl u
  · exact hgray g ((h.other g hgu).symm.trans hg)

variable [DecidableEq α]

theorem entered_paint (u : α) (depth : Nat) (s : Marks α) :
    Entered u depth s { s.paint u .gray with deepest := max s.deepest depth } where
  self := by simp [Marks.paint]
  other v hv := by simp [Marks.paint, hv]
  deepest := rfl

theorem Marks.paint_self (s : Marks α) (u : α) (c : Color) : (s.paint u c).color u = c := by
  simp [Marks.paint]

theorem Marks.paint_other (s : Marks α) {u v : α} (c : Color) (hv : v ≠ u) :
    (s.paint u c).color v = s.color v := by
  simp [Marks.paint, hv]

/-- A gray node may be finished once its successors are. -/
theorem Settled.finish {s : Marks α} {u : α} (hs : Settled succ s) (hself : s.color u = .gray)
    (hsucc : ∀ v ∈ succ u, ∀ w, Reach succ v w → s.color w = .black) :
    Settled succ (s.paint u .black) := by
  have hkeep : ∀ v, s.color v = .black → (s.paint u .black).color v = .black := by
    intro v hv
    by_cases hvu : v = u
    · rw [hvu, s.paint_self]
    · rw [s.paint_other _ hvu, hv]
  constructor
  · intro v hv w hw
    apply hkeep
    by_cases hvu : v = u
    · subst hvu
      exact hsucc w hw w (Reach.refl w)
    · exact hs.closed v ((s.paint_other _ hvu).symm.trans hv) w hw
  · intro v hv hcycle
    by_cases hvu : v = u
    · -- a successor would lead back to `u`, which was still gray when it was finished
      subst hvu
      obtain ⟨c, hc, hback⟩ := onCycle_iff.1 hcycle
      have hb := hsucc c hc v hback
      rw [hself] at hb
      cases hb
    · exact hs.acyclic v ((s.paint_other _ hvu).symm.trans hv) hcycle

/-- The search of `u` ends: with its successors `u` itself is finished. -/
theorem Explored.finish {s s₁ s₂ : Marks α} {u : α} {depth : Nat} (hu : s.color u = .white)
    (hentered : Entered u depth s s₁)
    (h : Explored succ (depth + 1) (fun v => ∃ c ∈ succ u, Reach succ c v)
      (FirstFrom succ (succ u)) s₁ s₂) :
    Explored succ depth (Reach succ u) (FirstPath succ u) s (s₂.paint u .black) := by
  have hnot : s.color u ≠ .black := by simp [hu]
  have hgray : s₂.color u = .gray := (h.gray u).2 hentered.self
  constructor
  · intro v
    by_cases hv : v = u
    · subst hv
      simp [s₂.paint_self, Reach.refl]
    · rw [s₂.paint_other _ hv, h.black v, hentered.black hu v, reach_iff]
      simp [Ne.symm hv]
  · intro v
    by_cases hv : v = u
    · subst hv
      simp [s₂.paint_self, hu]
    · rw [s₂.paint_other _ hv, h.gray v, hentered.other v hv]
  · exact h.settled.finish hgray fun c hc v hv => (h.black v).2 (Or.inr ⟨c, hc, hv⟩)
  · have hfirst : IsGreatest (insert s.deepest {depth}) (max s.deepest depth) := by
      constructor
      · rcases Nat.le_total s.deepest depth with hm | hm <;> simp [hm]
      · rintro x (rfl | rfl)
        · exact le_max_left _ _
        · exact le_max_right _ _
    have hrest := h.deepest
    rw [hentered.deepest] at hrest
    rw [depths_firstPath hnot (hentered.black hu)]
    exact isGreatest_insert_trans hfirst hrest

theorem visit_spec (left : Nat) {depth : Nat} (hdepth : depth + left = cap + 1) (u : α)
    (s : Marks α) (hu : s.color u = .white) (hs : Settled succ s)
    (hgray : ∀ g, s.color g = .gray → Reach succ g u) :
    VisitSpec succ cap depth u s (visit succ cap left u s) := by
  have hnot : s.color u ≠ .black := by simp [hu]
  induction left generalizing depth u s with
  | zero =>
    constructor
    · intro s' h
      cases h
    · intro e _
      exact Or.inr ⟨depth, ⟨u, 0, hnot, .refl u, rfl⟩, by omega⟩
  | succ left ih =>
    have hnow : cap - left = depth := by omega
    obtain ⟨s₁, hs₁⟩ : ∃ s₁ : Marks α,
        s₁ = { s.paint u .gray with deepest := max s.deepest (cap - left) } := ⟨_, rfl⟩
    have hentered : Entered u depth s s₁ := by
      rw [hs₁, hnow]
      exact entered_paint u depth s
    have hspec : ScanSpec succ cap (depth + 1) u (succ u) s₁
        (scan (visit succ cap left) u (succ u) s₁) :=
      scan_spec (fun c _ s hc hs hg => ih (by omega) c s hc hs hg (by simp [hc])) (succ u)
        (fun c hc => hc) s₁ (hentered.settled hu hs) (hentered.gray hgray)
    cases hscan : scan (visit succ cap left) u (succ u) s₁ with
    | error e =>
      have hr : visit succ cap (left + 1) u s = .error e := by
        simp only [visit, ← hs₁, hscan]
      rw [hr]
      constructor
      · intro s' h
        cases h
      · intro e' _
        rcases hspec.error e hscan with h | ⟨d, hd, hcap⟩
        · exact Or.inl h
        · refine Or.inr ⟨d, ?_, hcap⟩
          rw [depths_firstPath hnot (hentered.black hu)]
          exact Or.inr hd
    | ok s₂ =>
      have hr : visit succ cap (left + 1) u s = .ok (s₂.paint u .black) := by
        simp only [visit, ← hs₁, hscan]
      obtain ⟨hex, hcap⟩ := hspec.ok s₂ hscan
      rw [hr]
      constructor
      · intro s' h
        obtain rfl := Except.ok.inj h
        refine ⟨hex.finish hu hentered, fun hle => hcap ?_⟩
        rw [hentered.deepest]
        exact max_le hle (by omega)
      · intro e h
        cases h

/-- A search that ends has seen no cycle, and its depth is that of the longest first path. -/
theorem visit_ok {u : α} {s : Marks α} (h : visit succ cap (cap + 1) u .start = .ok s) :
    (∀ v, Reach succ u v → ¬ OnCycle succ v) ∧ s.deepest ≤ cap ∧
      IsGreatest { n | ∃ v, FirstPath succ u v n } s.deepest := by
  have hspec : VisitSpec succ cap 0 u .start (visit succ cap (cap + 1) u .start) :=
    visit_spec (cap + 1) (Nat.zero_add _) u .start rfl Settled.start (fun _ hg => nomatch hg)
  obtain ⟨hex, hcap⟩ := hspec.ok s h
  refine ⟨fun v hv => hex.settled.acyclic v ((hex.black v).2 (Or.inr hv)), hcap (Nat.zero_le _), ?_⟩
  have hset : insert (Marks.start : Marks α).deepest (depths .start 0 (FirstPath succ u)) =
      { n | ∃ v, FirstPath succ u v n } := by
    ext d
    constructor
    · rintro (rfl | ⟨v, n, -, hn, rfl⟩)
      · exact ⟨u, .refl u⟩
      · exact ⟨v, by simpa using hn⟩
    · rintro ⟨v, hn⟩
      exact Or.inr ⟨v, d, by simp [Marks.start], hn, by simp⟩
  rw [← hset]
  exact hex.deepest

theorem visit_error {u : α} {e : Halt α} (h : visit succ cap (cap + 1) u .start = .error e) :
    (∃ v, Reach succ u v ∧ OnCycle succ v) ∨ ∃ v n, FirstPath succ u v n ∧ cap < n := by
  have hspec : VisitSpec succ cap 0 u .start (visit succ cap (cap + 1) u .start) :=
    visit_spec (cap + 1) (Nat.zero_add _) u .start rfl Settled.start (fun _ hg => nomatch hg)
  rcases hspec.error e h with h | ⟨d, ⟨v, n, -, hn, rfl⟩, hcap⟩
  · exact Or.inl h
  · exact Or.inr ⟨v, n, hn, by omega⟩

end DepthFirst

end Vici2

import Mathlib.Data.List.Basic

/-! JSON values and their texts. A style fixes how characters are escaped, how
numbers are written, what separates members and how the keys of an object are
ordered. A scanner that looks for spaces outside string literals tells compact
styles from spaced ones. -/

namespace Vici2

inductive Json (ν : Type*)
  | null
  | bool (b : Bool)
  | num (x : ν)
  | str (s : String)
  | arr (l : List (Json ν))
  | obj (l : List (String × Json ν))

namespace Json

inductive Mode
  | outside
  | inside
  | escaped
  deriving DecidableEq, Repr

/-- The scanner stops, with `none`, at a space outside string literals. -/
def scanStep : Mode → Char → Option Mode
  | .outside, c => if c = ' ' then none else if c = '"' then some .inside else some .outside
  | .inside, c => if c = '"' then some .outside else if c = '\\' then some .escaped else some .inside
  | .escaped, _ => some .inside

def scan : Mode → List Char → Option Mode
  | m, [] => some m
  | m, c :: cs => (scanStep m c).bind fun m => scan m cs

theorem scan_append (m : Mode) (a b : List Char) :
    scan m (a ++ b) = (scan m a).bind fun m => scan m b := by
  induction a generalizing m with
  | nil => rfl
  | cons c a ih =>
    simp only [List.cons_append, scan]
    cases scanStep m c with
    | none => rfl
    | some m' => exact ih m'

theorem scan_append_of_some {m m' : Mode} {a b : List Char} (h : scan m a = some m') :
    scan m (a ++ b) = scan m' b := by
  rw [scan_append, h]
  rfl

theorem scan_append_of_none {m : Mode} {a b : List Char} (h : scan m a = none) :
    scan m (a ++ b) = none := by
  rw [scan_append, h]
  rfl

structure Style (ν : Type*) where
  escape : Char → List Char
  number : ν → List Char
  comma : List Char
  colon : List Char
  keyLe : String → String → Bool
  escape_inside : ∀ c, scan .inside (escape c) = some .inside
  number_outside : ∀ x, scan .outside (number x) = some .outside

variable {ν : Type*} (R : Style ν)

def literal (s : String) : List Char := '"' :: (s.toList.flatMap R.escape ++ ['"'])

def joinWith (sep : List Char) : List (List Char) → List Char
  | [] => []
  | [a] => a
  | a :: b :: rest => a ++ sep ++ joinWith sep (b :: rest)

def sortKeys (l : List (String × List Char)) : List (String × List Char) :=
  l.mergeSort fun a b => R.keyLe a.1 b.1

mutual

def render : Json ν → List Char
  | .null => ['n', 'u', 'l', 'l']
  | .bool true => ['t', 'r', 'u', 'e']
  | .bool false => ['f', 'a', 'l', 's', 'e']
  | .num x => R.number x
  | .str s => literal R s
  | .arr l => '[' :: (joinWith R.comma (renderList l) ++ [']'])
  | .obj l => '{' :: (joinWith R.comma
      ((sortKeys R (renderPairs l)).map fun m => literal R m.1 ++ R.colon ++ m.2) ++ ['}'])

def renderList : List (Json ν) → List (List Char)
  | [] => []
  | v :: l => render v :: renderList l

def renderPairs : List (String × Json ν) → List (String × List Char)
  | [] => []
  | (k, v) :: l => (k, render v) :: renderPairs l

end

theorem scan_inside_escapes (s : List Char) :
    scan .inside (s.flatMap R.escape) = some .inside := by
  induction s with
  | nil => rfl
  | cons c s ih => rw [List.flatMap_cons, scan_append_of_some (R.escape_inside c), ih]

theorem scan_literal (s : String) : scan .outside (literal R s) = some .outside := by
  unfold literal
  have hquote : scan .outside ('"' :: (s.toList.flatMap R.escape ++ ['"'])) =
      scan .inside (s.toList.flatMap R.escape ++ ['"']) := rfl
  rw [hquote, scan_append_of_some (scan_inside_escapes R s.toList)]
  rfl

/-- The text ends outside string literals; only if `spaces` is set may the
scanner stop in it. -/
def Closed (spaces : Bool) (t : List Char) : Prop :=
  scan .outside t = some .outside ∨ (spaces = true ∧ scan .outside t = none)

theorem Closed.append {spaces : Bool} {a b : List Char} (ha : Closed spaces a)
    (hb : Closed spaces b) : Closed spaces (a ++ b) := by
  rcases ha with ha | ⟨hs, ha⟩
  · unfold Closed
    rw [scan_append_of_some ha]
    exact hb
  · exact Or.inr ⟨hs, scan_append_of_none ha⟩

theorem Closed.literal {spaces : Bool} (s : String) : Closed spaces (literal R s) :=
  Or.inl (scan_literal R s)

theorem Closed.joinWith {spaces : Bool} {sep : List Char} (hsep : Closed spaces sep)
    {l : List (List Char)} (h : ∀ t ∈ l, Closed spaces t) : Closed spaces (joinWith sep l) := by
  induction l using joinWith.induct with
  | case1 => exact Or.inl rfl
  | case2 a => exact h a List.mem_cons_self
  | case3 a b rest ih =>
    have ha := h a List.mem_cons_self
    have hrest := ih fun t ht => h t (List.mem_cons_of_mem _ ht)
    exact (ha.append hsep).append hrest

theorem Closed.array {spaces : Bool} {t : List Char} (h : Closed spaces t) :
    Closed spaces ('[' :: (t ++ [']'])) := by
  have hopen : Closed spaces ['['] := Or.inl rfl
  have hclose : Closed spaces [']'] := Or.inl rfl
  exact hopen.append (h.append hclose)

theorem Closed.object {spaces : Bool} {t : List Char} (h : Closed spaces t) :
    Closed spaces ('{' :: (t ++ ['}'])) := by
  have hopen : Closed spaces ['{'] := Or.inl rfl
  have hclose : Closed spaces ['}'] := Or.inl rfl
  exact hopen.append (h.append hclose)

mutual

theorem closed_render {spaces : Bool} (hcomma : Closed spaces R.comma)
    (hcolon : Closed spaces R.colon) : ∀ v : Json ν, Closed spaces (render R v)
  | .null => Or.inl rfl
  | .bool true => Or.inl rfl
  | .bool false => Or.inl rfl
  | .num x => Or.inl (R.number_outside x)
  | .str s => Closed.literal R s
  | .arr l => (hcomma.joinWith (closed_renderList hcomma hcolon l)).array
  | .obj l => by
    have h := closed_renderPairs hcomma hcolon l
    refine (hcomma.joinWith ?_).object
    intro t ht
    obtain ⟨m, hm, rfl⟩ := List.mem_map.1 ht
    have hm' : m ∈ renderPairs R l := List.mem_mergeSort.1 hm
    exact ((Closed.literal R m.1).append hcolon).append (h m hm')

theorem closed_renderList {spaces : Bool} (hcomma : Closed spaces R.comma)
    (hcolon : Closed spaces R.colon) : ∀ l : List (Json ν), ∀ t ∈ renderList R l, Closed spaces t
  | [], t, ht => by simp [renderList] at ht
  | v :: l, t, ht => by
    have hv := closed_render hcomma hcolon v
    have hl := closed_renderList hcomma hcolon l
    simp only [renderList, List.mem_cons] at ht
    rcases ht with rfl | ht
    · exact hv
    · exact hl t ht

theorem closed_renderPairs {spaces : Bool} (hcomma : Closed spaces R.comma)
    (hcolon : Closed spaces R.colon) :
    ∀ l : List (String × Json ν), ∀ m ∈ renderPairs R l, Closed spaces m.2
  | [], m, hm => by simp [renderPairs] at hm
  | (k, v) :: l, m, hm => by
    have hv := closed_render hcomma hcolon v
    have hl := closed_renderPairs hcomma hcolon l
    simp only [renderPairs, List.mem_cons] at hm
    rcases hm with rfl | hm
    · exact hv
    · exact hl m hm

end

/-- A compact style writes no space outside string literals. -/
theorem scan_render_compact (hcomma : scan .outside R.comma = some .outside)
    (hcolon : scan .outside R.colon = some .outside) (v : Json ν) :
    scan .outside (render R v) = some .outside := by
  have hclosed : Closed false (render R v) := closed_render R (Or.inl hcomma) (Or.inl hcolon) v
  rcases hclosed with h | ⟨h, -⟩
  · exact h
  · cases h

section Characters

variable {R} {Q : Char → Prop}

theorem forall_mem_joinWith {sep : List Char} (hsep : ∀ c ∈ sep, Q c) {l : List (List Char)}
    (h : ∀ t ∈ l, ∀ c ∈ t, Q c) : ∀ c ∈ joinWith sep l, Q c := by
  induction l using joinWith.induct with
  | case1 => simp [joinWith]
  | case2 a => exact h a List.mem_cons_self
  | case3 a b rest ih =>
    intro c hc
    simp only [joinWith, List.mem_append] at hc
    rcases hc with (hc | hc) | hc
    · exact h a List.mem_cons_self c hc
    · exact hsep c hc
    · exact ih (fun t ht => h t (List.mem_cons_of_mem _ ht)) c hc

theorem forall_mem_literal (hquote : Q '"') (hesc : ∀ c, ∀ d ∈ R.escape c, Q d) (s : String) :
    ∀ c ∈ literal R s, Q c := by
  intro c hc
  unfold literal at hc
  simp only [List.mem_cons, List.mem_append, List.mem_flatMap, List.not_mem_nil, or_false] at hc
  rcases hc with rfl | ⟨d, -, hd⟩ | rfl
  · exact hquote
  · exact hesc d c hd
  · exact hquote

/-- What holds of the punctuation and words of JSON, and of every escape and
number of a style, holds of every character it writes. -/
structure Writes (R : Style ν) (Q : Char → Prop) : Prop where
  fixed : ∀ c ∈ "nultrefas[]\x7b\x7d\"".toList, Q c
  escape : ∀ c, ∀ d ∈ R.escape c, Q d
  number : ∀ x, ∀ d ∈ R.number x, Q d
  comma : ∀ d ∈ R.comma, Q d
  colon : ∀ d ∈ R.colon, Q d

mutual

theorem forall_mem_render (hQ : Writes R Q) : ∀ v : Json ν, ∀ c ∈ render R v, Q c
  | .null, c, hc => hQ.fixed c (by simp [render] at hc; rcases hc with h | h | h <;> simp [h])
  | .bool true, c, hc => hQ.fixed c (by
      simp [render] at hc; rcases hc with h | h | h | h <;> simp [h])
  | .bool false, c, hc => hQ.fixed c (by
      simp [render] at hc; rcases hc with h | h | h | h | h <;> simp [h])
  | .num x, c, hc => hQ.number x c hc
  | .str s, c, hc => forall_mem_literal (hQ.fixed _ (by decide)) hQ.escape s c hc
  | .arr l, c, hc => by
    have h := forall_mem_renderList hQ l
    simp only [render, List.mem_cons, List.mem_append, List.not_mem_nil, or_false] at hc
    rcases hc with rfl | hc | rfl
    · exact hQ.fixed _ (by decide)
    · exact forall_mem_joinWith hQ.comma h c hc
    · exact hQ.fixed _ (by decide)
  | .obj l, c, hc => by
    have h := forall_mem_renderPairs hQ l
    simp only [render, List.mem_cons, List.mem_append, List.not_mem_nil, or_false] at hc
    rcases hc with rfl | hc | rfl
    · exact hQ.fixed _ (by decide)
    · refine forall_mem_joinWith hQ.comma ?_ c hc
      intro t ht d hd
      obtain ⟨m, hm, rfl⟩ := List.mem_map.1 ht
      have hm' : m ∈ renderPairs R l := List.mem_mergeSort.1 hm
      simp only [List.mem_append] at hd
      rcases hd with (hd | hd) | hd
      · exact forall_mem_literal (hQ.fixed _ (by decide)) hQ.escape m.1 d hd
      · exact hQ.colon d hd
      · exact h m hm' d hd
    · exact hQ.fixed _ (by decide)

theorem forall_mem_renderList (hQ : Writes R Q) :
    ∀ l : List (Json ν), ∀ t ∈ renderList R l, ∀ c ∈ t, Q c
  | [], t, ht => by simp [renderList] at ht
  | v :: l, t, ht => by
    have hv := forall_mem_render hQ v
    have hl := forall_mem_renderList hQ l
    simp only [renderList, List.mem_cons] at ht
    rcases ht with rfl | ht
    · exact hv
    · exact hl t ht

theorem forall_mem_renderPairs (hQ : Writes R Q) :
    ∀ l : List (String × Json ν), ∀ m ∈ renderPairs R l, ∀ c ∈ m.2, Q c
  | [], m, hm => by simp [renderPairs] at hm
  | (k, v) :: l, m, hm => by
    have hv := forall_mem_render hQ v
    have hl := forall_mem_renderPairs hQ l
    simp only [renderPairs, List.mem_cons] at hm
    rcases hm with rfl | hm
    · exact hv
    · exact hl m hm

end

end Characters

section Spaced

variable {R} (hcomma : scan .outside R.comma = none) (hcolon : scan .outside R.colon = none)

include hcomma hcolon

theorem scan_render_arr_spaced (v w : Json ν) (l : List (Json ν)) :
    scan .outside (render R (.arr (v :: w :: l))) = none := by
  have hv := closed_render R (Or.inr ⟨rfl, hcomma⟩) (Or.inr ⟨rfl, hcolon⟩) v
  have hsep : ∀ t, scan .outside (render R v ++ (R.comma ++ t)) = none := by
    intro t
    rcases hv with hv | ⟨-, hv⟩
    · rw [scan_append_of_some hv, scan_append_of_none hcomma]
    · exact scan_append_of_none hv
  have htext : render R (.arr (v :: w :: l)) =
      ['['] ++ (render R v ++ (R.comma ++ (joinWith R.comma (render R w :: renderList R l) ++ [']']))) := by
    simp [render, renderList, joinWith]
  have hopen : scan .outside ['['] = some .outside := rfl
  rw [htext, scan_append_of_some hopen, hsep]

omit hcomma in
theorem scan_render_obj_spaced (p : String × Json ν) (l : List (String × Json ν)) :
    scan .outside (render R (.obj (p :: l))) = none := by
  have hne : sortKeys R (renderPairs R (p :: l)) ≠ [] := by
    intro hnil
    have hlen := congrArg List.length hnil
    obtain ⟨k, v⟩ := p
    simp [sortKeys, renderPairs] at hlen
  obtain ⟨m, ms, hm⟩ := List.exists_cons_of_ne_nil hne
  have htext : ∃ rest, render R (.obj (p :: l)) = ['{'] ++ (literal R m.1 ++ (R.colon ++ rest)) := by
    unfold render
    rw [hm]
    cases ms with
    | nil => exact ⟨m.2 ++ ['}'], by simp [joinWith]⟩
    | cons n ms =>
      exact ⟨m.2 ++ (R.comma ++ (joinWith R.comma
        ((n :: ms).map fun m => literal R m.1 ++ R.colon ++ m.2) ++ ['}'])), by simp [joinWith]⟩
  obtain ⟨rest, hrest⟩ := htext
  have hopen : scan .outside ['{'] = some .outside := rfl
  rw [hrest, scan_append_of_some hopen, scan_append_of_some (scan_literal R m.1),
    scan_append_of_none hcolon]

end Spaced

end Json

end Vici2

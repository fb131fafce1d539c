import Vici2.Delimited

/-! Records of cells as comma-separated text, and reading them back. A writer says which
characters make it put a cell between quotes. A reader ends a record at LF, CRLF or CR. -/

namespace Vici2

namespace Csv

abbrev Text := List Char

def doubled (s : Text) : Text := s.flatMap fun c => if c = '"' then ['"', '"'] else [c]

def cell (quotes : Char → Bool) (s : Text) : Text :=
  if s.any quotes then '"' :: (doubled s ++ ['"']) else s

def record (quotes : Char → Bool) (l : List Text) : Text :=
  Delimited.join ',' (l.map (cell quotes))

inductive Mode
  | line
  | afterCR
  | start
  | plain
  | quoted
  | closing
  deriving DecidableEq, Repr

inductive Act
  | keep (c : Char) (m : Mode)
  | skip (m : Mode)
  | cell
  | record (m : Mode)
  deriving DecidableEq, Repr

def ends (c : Char) : Option Act :=
  if c = ',' then some .cell
  else if c = '\n' then some (.record .line)
  else if c = '\r' then some (.record .afterCR)
  else none

def act (m : Mode) (c : Char) : Option Act :=
  match m with
  | .quoted => if c = '"' then some (.skip .closing) else some (.keep c .quoted)
  | .closing => if c = '"' then some (.keep '"' .quoted) else ends c
  | .plain => some ((ends c).getD (.keep c .plain))
  | .afterCR =>
    if c = '\n' then some (.skip .line)
    else if c = '"' then some (.skip .quoted)
    else some ((ends c).getD (.keep c .plain))
  | .line | .start =>
    if c = '"' then some (.skip .quoted) else some ((ends c).getD (.keep c .plain))

/-- The records of a text, behind the cells and the part of a cell already read. -/
def read : Mode → Text → List Text → Text → Option (List (List Text))
  | .line, _, _, [] => some []
  | .afterCR, _, _, [] => some []
  | .quoted, _, _, [] => none
  | .start, part, cells, [] => some [cells ++ [part]]
  | .plain, part, cells, [] => some [cells ++ [part]]
  | .closing, part, cells, [] => some [cells ++ [part]]
  | m, part, cells, c :: t =>
    match act m c with
    | none => none
    | some (.keep d m') => read m' (part ++ [d]) cells t
    | some (.skip m') => read m' part cells t
    | some .cell => read .start [] (cells ++ [part]) t
    | some (.record m') => (read m' [] [] t).map ((cells ++ [part]) :: ·)

def parse (t : Text) : Option (List (List Text)) := read .line [] [] t

def resume (a : Act) (s : Text) (cells : List Text) (t : Text) : Option (List (List Text)) :=
  match a with
  | .cell => read .start [] (cells ++ [s]) t
  | .record m => (read m [] [] t).map ((cells ++ [s]) :: ·)
  | .keep _ _ | .skip _ => none

def special (c : Char) : Bool := c == '"' || c == ',' || c == '\n' || c == '\r'

section Read

variable {part s t : Text} {cells : List Text} {e : Char} {a : Act} {m : Mode}

theorem ends_of_not_special {c : Char} (h : special c = false) : c ≠ '"' ∧ ends c = none := by
  simp [special] at h
  simp [ends, h]

theorem ne_quote_of_ends (h : ends e = some a) : e ≠ '"' := by
  rintro rfl
  cases h

theorem read_act_ends (hm : m ≠ .quoted) (hcr : m ≠ .afterCR) (h : ends e = some a) :
    read m part cells (e :: t) = resume a part cells t := by
  have he := ne_quote_of_ends h
  have hact : act m e = some a := by
    cases m <;> simp [act, he, h] <;> simp at hm hcr
  have hkind : a = .cell ∨ ∃ m', a = .record m' := by
    unfold ends at h
    split_ifs at h <;> simp at h <;> simp [← h]
  rw [read.eq_def]
  rcases hkind with rfl | ⟨m', rfl⟩ <;> cases m <;> simp [hact, resume]

theorem read_plain (hs : ∀ c ∈ s, special c = false) (h : ends e = some a) :
    read .plain part cells (s ++ e :: t) = resume a (part ++ s) cells t := by
  induction s generalizing part with
  | nil => simpa using read_act_ends (by decide) (by decide) h
  | cons c s ih =>
    obtain ⟨hquote, hends⟩ := ends_of_not_special (hs c List.mem_cons_self)
    have hact : act .plain c = some (.keep c .plain) := by simp [act, hends]
    rw [List.cons_append, read, hact]
    simpa using @ih (part ++ [c]) fun d hd => hs d (List.mem_cons_of_mem c hd)

theorem read_quoted (h : ends e = some a) :
    read .quoted part cells (doubled s ++ '"' :: e :: t) = resume a (part ++ s) cells t := by
  induction s generalizing part with
  | nil =>
    have hact : act .quoted '"' = some (.skip .closing) := rfl
    rw [doubled, List.flatMap_nil, List.nil_append, read, hact, List.append_nil]
    exact read_act_ends (by decide) (by decide) h
  | cons c s ih =>
    have hstep : read .quoted part cells (doubled (c :: s) ++ '"' :: e :: t) =
        read .quoted (part ++ [c]) cells (doubled s ++ '"' :: e :: t) := by
      by_cases hc : c = '"'
      · subst hc
        have h1 : act .quoted '"' = some (.skip .closing) := rfl
        have h2 : act .closing '"' = some (.keep '"' .quoted) := rfl
        simp [doubled, read, h1, h2]
      · have h1 : act .quoted c = some (.keep c .quoted) := by simp [act, hc]
        simp [doubled, hc, read, h1]
    rw [hstep, ih]
    simp

/-- A cell whose text a reader takes for that cell: between quotes, or with nothing that a
cell without quotes cannot hold. -/
def Safe (quotes : Char → Bool) (s : Text) : Prop :=
  s.any quotes = true ∨ ∀ c ∈ s, special c = false

variable {quotes : Char → Bool}

theorem read_cell (hm : m = .line ∨ m = .start) (hs : Safe quotes s) (h : ends e = some a) :
    read m [] cells (cell quotes s ++ e :: t) = resume a s cells t := by
  have hnotQuoted : m ≠ .quoted := by rcases hm with rfl | rfl <;> decide
  have hnotCR : m ≠ .afterCR := by rcases hm with rfl | rfl <;> decide
  unfold cell
  split_ifs with hquote
  · have hact : act m '"' = some (.skip .quoted) := by rcases hm with rfl | rfl <;> rfl
    have hopen : read m [] cells ('"' :: (doubled s ++ ['"']) ++ e :: t) =
        read .quoted [] cells (doubled s ++ '"' :: e :: t) := by
      rw [List.cons_append, List.append_assoc, List.singleton_append]
      rcases hm with rfl | rfl <;> rw [read, hact]
    rw [hopen, read_quoted h, List.nil_append]
  · have hplain := hs.resolve_left hquote
    cases s with
    | nil => exact read_act_ends hnotQuoted hnotCR h
    | cons c s =>
      obtain ⟨hc, hends⟩ := ends_of_not_special (hplain c List.mem_cons_self)
      have hact : act m c = some (.keep c .plain) := by
        rcases hm with rfl | rfl <;> simp [act, hc, hends]
      have hrest : ∀ d ∈ s, special d = false := fun d hd => hplain d (List.mem_cons_of_mem c hd)
      have hfirst : read m [] cells (c :: s ++ e :: t) = read .plain [c] cells (s ++ e :: t) := by
        rw [List.cons_append]
        rcases hm with rfl | rfl <;> rw [read, hact] <;> rfl
      rw [hfirst, read_plain hrest h]
      rfl

theorem record_cons {l : List Text} (hl : l ≠ []) :
    record quotes (s :: l) = cell quotes s ++ ',' :: record quotes l := by
  cases l with
  | nil => exact absurd rfl hl
  | cons u l => rfl

theorem read_record {l : List Text} {m' : Mode} (hl : l ≠ []) (hm : m = .line ∨ m = .start)
    (hs : ∀ s ∈ l, Safe quotes s) (h : ends e = some (.record m')) :
    read m [] cells (record quotes l ++ e :: t) = (read m' [] [] t).map ((cells ++ l) :: ·) := by
  induction l generalizing m cells with
  | nil => exact absurd rfl hl
  | cons s l ih =>
    have hfirst := hs s List.mem_cons_self
    by_cases hnil : l = []
    · subst hnil
      exact read_cell hm hfirst h
    · rw [record_cons hnil, List.append_assoc, List.cons_append,
        read_cell hm hfirst (a := .cell) rfl, resume,
        ih hnil (Or.inr rfl) fun u hu => hs u (List.mem_cons_of_mem s hu)]
      simp

theorem read_plain_end (hs : ∀ c ∈ s, special c = false) :
    read .plain part cells s = some [cells ++ [part ++ s]] := by
  induction s generalizing part with
  | nil => simp [read]
  | cons c s ih =>
    obtain ⟨-, hends⟩ := ends_of_not_special (hs c List.mem_cons_self)
    have hact : act .plain c = some (.keep c .plain) := by simp [act, hends]
    rw [read, hact]
    simpa using @ih (part ++ [c]) fun d hd => hs d (List.mem_cons_of_mem c hd)

theorem read_quoted_end :
    read .quoted part cells (doubled s ++ ['"']) = some [cells ++ [part ++ s]] := by
  induction s generalizing part with
  | nil =>
    have hact : act .quoted '"' = some (.skip .closing) := rfl
    rw [doubled, List.flatMap_nil, List.nil_append, read, hact, List.append_nil]
    rfl
  | cons c s ih =>
    have hstep : read .quoted part cells (doubled (c :: s) ++ ['"']) =
        read .quoted (part ++ [c]) cells (doubled s ++ ['"']) := by
      by_cases hc : c = '"'
      · subst hc
        have h1 : act .quoted '"' = some (.skip .closing) := rfl
        have h2 : act .closing '"' = some (.keep '"' .quoted) := rfl
        simp [doubled, read, h1, h2]
      · have h1 : act .quoted c = some (.keep c .quoted) := by simp [act, hc]
        simp [doubled, hc, read, h1]
    rw [hstep, ih]
    simp

theorem read_cell_end (hs : Safe quotes s) :
    read .start [] cells (cell quotes s) = some [cells ++ [s]] := by
  unfold cell
  split_ifs with hquote
  · have hact : act .start '"' = some (.skip .quoted) := rfl
    rw [read, hact]
    exact read_quoted_end
  · have hplain := hs.resolve_left hquote
    cases s with
    | nil => rfl
    | cons c s =>
      obtain ⟨hc, hends⟩ := ends_of_not_special (hplain c List.mem_cons_self)
      have hact : act .start c = some (.keep c .plain) := by simp [act, hc, hends]
      have hrest : ∀ d ∈ s, special d = false := fun d hd => hplain d (List.mem_cons_of_mem c hd)
      rw [read, hact]
      exact read_plain_end hrest

theorem read_record_end {l : List Text} (hl : 2 ≤ l.length) (hm : m = .line ∨ m = .start)
    (hs : ∀ s ∈ l, Safe quotes s) : read m [] cells (record quotes l) = some [cells ++ l] := by
  induction l generalizing m cells with
  | nil => cases hl
  | cons s l ih =>
    have hnil : l ≠ [] := by
      rintro rfl
      simp at hl
    have hsafe : ∀ u ∈ l, Safe quotes u := fun u hu => hs u (List.mem_cons_of_mem s hu)
    have hcomma : ends ',' = some .cell := rfl
    rw [record_cons hnil, read_cell hm (hs s List.mem_cons_self) hcomma, resume]
    by_cases hlong : 2 ≤ l.length
    · rw [ih hlong (Or.inr rfl) hsafe]
      simp
    · obtain ⟨u, rfl⟩ : ∃ u, l = [u] := by
        cases l with
        | nil => exact absurd rfl hnil
        | cons u l =>
          cases l with
          | nil => exact ⟨u, rfl⟩
          | cons v l => simp at hlong
      have hlast : record quotes [u] = cell quotes u := rfl
      rw [hlast, read_cell_end (hsafe u List.mem_cons_self)]
      simp

/-- Where a writer quotes for all but the carriage return, a cell that is not safe ends its
record at one. -/
theorem read_unsafe (hquotes : ∀ c, special c = true → c ≠ '\r' → quotes c = true)
    (hm : m = .line ∨ m = .start) (hs : ¬ Safe quotes s) :
    ∃ (p : Text) (rest : Option (List (List Text))), p ≠ s ∧
      read m [] cells (cell quotes s ++ t) = rest.map ((cells ++ [p]) :: ·) := by
  have hquote : s.any quotes = false := Bool.eq_false_iff.2 fun h => hs (Or.inl h)
  have hcr : '\r' ∈ s := by
    by_contra hno
    apply hs
    right
    intro c hc
    by_contra hspecial
    have hmark := hquotes c (Bool.of_not_eq_false hspecial) (by rintro rfl; exact hno hc)
    rw [List.any_eq_true.2 ⟨c, hc, hmark⟩] at hquote
    cases hquote
  obtain ⟨p, q, rfl, hp⟩ := List.eq_append_cons_of_mem hcr
  have hplain : ∀ c ∈ p, special c = false := by
    intro c hc
    by_contra hspecial
    have hmark := hquotes c (Bool.of_not_eq_false hspecial) (by rintro rfl; exact hp hc)
    rw [List.any_append, List.any_eq_true.2 ⟨c, hc, hmark⟩] at hquote
    cases hquote
  have hcell : cell quotes (p ++ '\r' :: q) = p ++ '\r' :: q := by
    unfold cell
    rw [hquote]
    rfl
  have hread := @read_cell p (q ++ t) cells '\r' (.record .afterCR) m (fun _ => false) hm
    (Or.inr hplain) rfl
  have hsame : cell (fun _ => false) p = p := by simp [cell]
  rw [hsame] at hread
  refine ⟨p, read .afterCR [] [] (q ++ t), ?_, ?_⟩
  · intro heq
    have hlen := congrArg List.length heq
    rw [List.length_append, List.length_cons] at hlen
    omega
  · rw [hcell, List.append_assoc, List.cons_append]
    exact hread

theorem read_unsafe_record (hquotes : ∀ c, special c = true → c ≠ '\r' → quotes c = true)
    {l : List Text} (hm : m = .line ∨ m = .start) (hs : ∃ s ∈ l, ¬ Safe quotes s) :
    ∃ (l' : List Text) (rest : Option (List (List Text))), l' ≠ l ∧
      read m [] cells (record quotes l ++ t) = rest.map ((cells ++ l') :: ·) := by
  induction l generalizing m cells with
  | nil =>
    obtain ⟨s, hmem, -⟩ := hs
    cases hmem
  | cons s l ih =>
    have hdiffer : ∀ p : Text, p ≠ s → [p] ≠ s :: l := by
      intro p hp heq
      exact hp (List.cons.inj heq).1
    by_cases hnil : l = []
    · subst hnil
      obtain ⟨u, hu, hunsafe⟩ := hs
      obtain rfl : u = s := by simpa using hu
      obtain ⟨p, rest, hp, hread⟩ := read_unsafe hquotes hm hunsafe
      exact ⟨[p], rest, hdiffer p hp, hread⟩
    · rw [record_cons hnil, List.append_assoc, List.cons_append]
      by_cases hsafe : Safe quotes s
      · have hlater : ∃ u ∈ l, ¬ Safe quotes u := by
          obtain ⟨u, hu, hunsafe⟩ := hs
          rcases List.mem_cons.1 hu with rfl | hu
          · exact absurd hsafe hunsafe
          · exact ⟨u, hu, hunsafe⟩
        obtain ⟨l', rest, hne, hread⟩ := @ih (cells ++ [s]) .start (Or.inr rfl) hlater
        refine ⟨s :: l', rest, fun heq => hne (List.cons.inj heq).2, ?_⟩
        rw [read_cell hm hsafe (a := .cell) rfl, resume, hread]
        simp
      · obtain ⟨p, rest, hp, hread⟩ := read_unsafe hquotes hm hsafe
        exact ⟨[p], rest, hdiffer p hp, hread⟩

/-- The records written each with a line feed behind it are read back exactly when every
cell is safe. -/
theorem parse_lines_iff (hquotes : ∀ c, special c = true → c ≠ '\r' → quotes c = true)
    {rows : List (List Text)} (hrows : ∀ l ∈ rows, l ≠ []) :
    parse (rows.flatMap fun l => record quotes l ++ ['\n']) = some rows ↔
      ∀ l ∈ rows, ∀ s ∈ l, Safe quotes s := by
  unfold parse
  induction rows with
  | nil => simp [read]
  | cons l rows ih =>
    have hl := hrows l List.mem_cons_self
    have hih := ih fun l' hl' => hrows l' (List.mem_cons_of_mem l hl')
    rw [List.flatMap_cons, List.append_assoc, List.singleton_append, List.forall_mem_cons]
    by_cases hsafe : ∀ s ∈ l, Safe quotes s
    · have hend : ends '\n' = some (.record .line) := rfl
      rw [read_record hl (Or.inl rfl) hsafe hend, List.nil_append, ← hih, and_iff_right hsafe]
      simp
    · have hunsafe : ∃ s ∈ l, ¬ Safe quotes s := by
        by_contra hno
        exact hsafe fun s hs => by_contra fun h => hno ⟨s, hs, h⟩
      obtain ⟨l', rest, hne, hread⟩ := @read_unsafe_record _ [] .line _ hquotes l (Or.inl rfl) hunsafe
      rw [hread]
      constructor
      · intro heq
        obtain ⟨tail, -, htail⟩ := Option.map_eq_some_iff.1 heq
        exact absurd (List.cons.inj htail).1 hne
      · intro h
        exact absurd h.1 hsafe

def joinLines : List Text → Text
  | [] => []
  | [l] => l
  | l :: l' :: ls => l ++ '\r' :: '\n' :: joinLines (l' :: ls)

theorem parse_joinLines (hquotes : ∀ c, special c = true → quotes c = true)
    {rows : List (List Text)} (hrows : ∀ l ∈ rows, 2 ≤ l.length) :
    parse (joinLines (rows.map (record quotes))) = some rows := by
  have hsafe : ∀ s, Safe quotes s := by
    intro s
    by_cases hquote : s.any quotes = true
    · exact Or.inl hquote
    · right
      intro c hc
      by_contra hspecial
      exact hquote (List.any_eq_true.2 ⟨c, hc, hquotes c (Bool.of_not_eq_false hspecial)⟩)
  unfold parse
  induction rows with
  | nil => rfl
  | cons l rows ih =>
    have hl := hrows l List.mem_cons_self
    cases rows with
    | nil =>
      have hone : joinLines ([l].map (record quotes)) = record quotes l := rfl
      rw [hone, read_record_end hl (Or.inl rfl) fun s _ => hsafe s, List.nil_append]
    | cons l' rows =>
      have hnil : l ≠ [] := by
        rintro rfl
        cases hl
      have hcr : ends '\r' = some (.record .afterCR) := rfl
      have hlf : act .afterCR '\n' = some (.skip .line) := rfl
      have hmore : joinLines ((l :: l' :: rows).map (record quotes)) =
          record quotes l ++ '\r' :: '\n' :: joinLines ((l' :: rows).map (record quotes)) := rfl
      rw [hmore, read_record hnil (Or.inl rfl) (fun s _ => hsafe s) hcr, read, hlf]
      dsimp only
      rw [ih fun l hl => hrows l (List.mem_cons_of_mem _ hl)]
      rfl

end Read

end Csv

end Vici2

import Vici2.Csv

/-! The CSV files of the operations reports. -/

namespace Vici2

namespace Reports

def bom : Char := Char.ofNat 0xfeff

/-- `escapeCell` puts a cell between quotes for these. -/
def cellQuotes (c : Char) : Bool := c == ',' || c == '"' || c == '\n' || c == '\r'

/-- A row gives the text of each of its values, `none` for null and for a missing key. -/
def toCsv (headers : List String) (rows : List (String → Option (List Char))) : List Char :=
  let headerRow := Csv.record cellQuotes (headers.map String.toList)
  let dataRows := rows.map fun row =>
    Csv.record cellQuotes (headers.map fun h => (row h).getD [])
  bom :: Csv.joinLines (headerRow :: dataRows)

/-- A reader that passes over the mark at the start finds the headers and every value,
whatever characters they hold. -/
theorem toCsv_reads_back {headers : List String} (rows : List (String → Option (List Char)))
    (h : 2 ≤ headers.length) :
    Csv.parse (toCsv headers rows).tail = some (headers.map String.toList ::
      rows.map fun row => headers.map fun h => (row h).getD []) := by
  have hquotes : ∀ c, Csv.special c = true → cellQuotes c = true := by
    intro c hc
    simp [Csv.special] at hc
    simp [cellQuotes]
    tauto
  have hrecords : (toCsv headers rows).tail = Csv.joinLines ((headers.map String.toList ::
      rows.map fun row => headers.map fun h => (row h).getD []).map (Csv.record cellQuotes)) := by
    simp [toCsv, Function.comp_def]
  rw [hrecords]
  apply Csv.parse_joinLines hquotes
  intro l hl
  rcases List.mem_cons.1 hl with rfl | hl
  · rw [List.length_map]
    exact h
  · obtain ⟨row, -, rfl⟩ := List.mem_map.1 hl
    rw [List.length_map]
    exact h

theorem toCsv_reads_back_name :
    Csv.parse (toCsv ["id", "name"] [fun h => if h = "id" then some ['7']
      else some ['"', '\r', ',', 'x']]).tail =
      some [[['i', 'd'], ['n', 'a', 'm', 'e']], [['7'], ['"', '\r', ',', 'x']]] :=
  (toCsv_reads_back _ (by decide)).trans (by decide)

end Reports

end Vici2

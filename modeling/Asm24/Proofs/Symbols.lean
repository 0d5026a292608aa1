import Asm24.Proofs.Layout
import Asm24.Proofs.Literal
import Asm24.Proofs.Words
import Mathlib.Data.Finmap

/-!
# Symbol tables and the definitions that they record

A table starts empty and is changed by definitions only, some of which are
refused.  What it holds is then a function of the calls that were made:
`Records` says that a label has the address of the first call that names it, and
that the labels stand in the order of these calls.  One call keeps this, whether
it is refused or not, and so does every sequence of calls.

The table is a single list.  It may as well be kept in two parts, a map from
labels to addresses and a list of labels, which answer different questions and
are changed separately.  `PairedTable` is this table; its parts never drift
apart, since each follows the single list.
-/

namespace Asm24.Assembly

open Asm24.Machine
open Asm24.Text (IsNumeral linesOf linesOf_terminated terminated)

namespace SymbolTable

/-! ## Sequences of definitions -/

/--
The table after a call that defines a label; a call that is refused leaves it as
it is.
-/
def attempt (table : SymbolTable) (call : String × Address) : SymbolTable :=
  match table.define call.1 call.2 with
  | .ok next => next
  | .error _ => table

/-- The table after calls on an empty table. -/
def afterCalls (calls : List (String × Address)) : SymbolTable :=
  calls.foldl attempt .empty

theorem afterCalls_concat (calls : List (String × Address))
    (call : String × Address) :
    afterCalls (calls ++ [call]) = (afterCalls calls).attempt call := by
  simp [afterCalls]

theorem define_of_known {table : SymbolTable} {name : String}
    (known : name ∈ table.names) (address : Address) :
    table.define name address = .error (.repeatedLabel name) := by
  rcases exists_lookup_iff.mpr known with ⟨bound, found⟩
  rw [define, found]

theorem define_of_fresh {table : SymbolTable} {name : String}
    (fresh : name ∉ table.names) (address : Address) :
    table.define name address = .ok ⟨table.entries ++ [(name, address)]⟩ := by
  rw [define, lookup_eq_none_iff.mpr fresh]

/-! ## What a table records -/

/-- The labels that calls name, with repetitions. -/
def called (calls : List (String × Address)) : List String :=
  calls.map Prod.fst

@[simp]
theorem called_concat (calls : List (String × Address)) (name : String)
    (address : Address) :
    called (calls ++ [(name, address)]) = called calls ++ [name] := by
  simp [called]

@[simp]
theorem names_concat (entries : List (String × Address)) (name : String)
    (address : Address) :
    names ⟨entries ++ [(name, address)]⟩ = names ⟨entries⟩ ++ [name] := by
  simp [names]

/--
The table binds the labels of the calls as the first call of each does, in their
order.
-/
structure Records (calls : List (String × Address)) (table : SymbolTable) :
    Prop where
  lookup : ∀ name, table.lookup name = calls.lookup name
  ordered : table.names.Pairwise
    (fun first second =>
      (called calls).idxOf first < (called calls).idxOf second)

theorem exists_lookup_calls_iff {calls : List (String × Address)}
    {name : String} :
    (∃ address, calls.lookup name = some address) ↔ name ∈ called calls :=
  @exists_lookup_iff ⟨calls⟩ name

theorem lookup_concat_self (calls : List (String × Address)) (name : String)
    (address : Address) :
    (calls ++ [(name, address)]).lookup name =
      (calls.lookup name).or (some address) := by
  simp [List.lookup_append]

theorem lookup_concat_of_ne (calls : List (String × Address))
    {other name : String} (differs : other ≠ name) (address : Address) :
    (calls ++ [(name, address)]).lookup other = calls.lookup other := by
  simp [List.lookup_append, List.lookup_cons, beq_false_of_ne differs]

namespace Records

variable {calls : List (String × Address)} {table : SymbolTable}
  (records : Records calls table)

include records

theorem mem_names_iff {name : String} :
    name ∈ table.names ↔ name ∈ called calls := by
  rw [← exists_lookup_iff, records.lookup, exists_lookup_calls_iff]

theorem nodup_names : table.names.Nodup := by
  refine records.ordered.imp ?_
  rintro first second before rfl
  exact Nat.lt_irrefl _ before

theorem mem_entries_iff {name : String} {address : Address} :
    (name, address) ∈ table.entries ↔ calls.lookup name = some address := by
  rw [← lookup_eq_some_iff records.nodup_names, records.lookup]

/--
A further call does not change which call was the first of a label that is
known.
-/
theorem ordered_concat (name : String) :
    table.names.Pairwise (fun first second =>
      (called calls ++ [name]).idxOf first <
        (called calls ++ [name]).idxOf second) := by
  refine List.Pairwise.imp_of_mem ?_ records.ordered
  intro first second inFirst inSecond before
  rwa [List.idxOf_append_of_mem (records.mem_names_iff.mp inFirst),
    List.idxOf_append_of_mem (records.mem_names_iff.mp inSecond)]

/-- A call for a label that is known is not recorded. -/
theorem concat_of_known {name : String} (known : name ∈ table.names)
    (address : Address) :
    Records (calls ++ [(name, address)]) table := by
  constructor
  · intro other
    rw [records.lookup]
    by_cases same : other = name
    · rcases exists_lookup_calls_iff.mpr (records.mem_names_iff.mp known) with
        ⟨bound, found⟩
      rw [same, lookup_concat_self, found, Option.some_or]
    · rw [lookup_concat_of_ne calls same]
  · rw [called_concat]
    exact records.ordered_concat name

/-- A call for a label that is not known is recorded behind the others. -/
theorem concat_of_fresh {name : String} (fresh : name ∉ table.names)
    (address : Address) :
    Records (calls ++ [(name, address)])
      ⟨table.entries ++ [(name, address)]⟩ := by
  have uncalled : name ∉ called calls :=
    fun member => fresh (records.mem_names_iff.mpr member)
  constructor
  · intro other
    rw [SymbolTable.lookup]
    by_cases same : other = name
    · rw [same, lookup_concat_self, lookup_concat_self]
      exact congrArg (·.or (some address)) (records.lookup name)
    · rw [lookup_concat_of_ne _ same, lookup_concat_of_ne _ same]
      exact records.lookup other
  · rw [called_concat, names_concat, List.pairwise_append]
    refine ⟨records.ordered_concat name, List.pairwise_singleton _ _, ?_⟩
    intro first inFirst last isLast
    obtain rfl := List.mem_singleton.mp isLast
    have earlier := records.mem_names_iff.mp inFirst
    rw [List.idxOf_append_of_mem earlier, List.idxOf_append_of_notMem uncalled]
    exact Nat.lt_add_right _ (List.idxOf_lt_length_of_mem earlier)

theorem attempt (call : String × Address) :
    Records (calls ++ [call]) (table.attempt call) := by
  rcases call with ⟨name, address⟩
  by_cases known : name ∈ table.names
  · rw [SymbolTable.attempt, define_of_known known]
    exact records.concat_of_known known address
  · rw [SymbolTable.attempt, define_of_fresh known]
    exact records.concat_of_fresh known address

end Records

/-- After any calls the table records them. -/
theorem records_afterCalls (calls : List (String × Address)) :
    Records calls (afterCalls calls) := by
  induction calls using List.reverseRecOn with
  | nil => exact ⟨fun _ => rfl, List.Pairwise.nil⟩
  | append_singleton earlier call ih =>
      rw [afterCalls_concat]
      exact ih.attempt call

/-! ## The listing of a table -/

/-- The line above the entries of a listing. -/
def heading (entries : List (String × Address)) : String :=
  if entries = [] then "Labels: (empty)" else "Labels:"

/--
A line that shows a label and its address: the label, filled up with blanks to
twenty characters, and at least three digits that spell the address.
-/
def Shows (line : String) (entry : String × Address) : Prop :=
  ∃ digits : String,
    line = "  " ++ entry.1 ++
      String.ofList (List.replicate (20 - entry.1.length) ' ') ++
        "  0x" ++ digits ∧
    3 ≤ digits.length ∧ IsNumeral 16 digits.toList entry.2.toNat

/--
A text that lists entries in their order: a heading, and a line feed after it
and after what shows each entry.  If no label holds a line feed itself, these
are the lines of the text.
-/
def Lists (text : String) (entries : List (String × Address)) : Prop :=
  ∃ lines, List.Forall₂ Shows lines entries ∧
    text = terminated (heading entries :: lines) ∧
    ((∀ entry ∈ entries, '\n' ∉ entry.1.toList) →
      linesOf text = heading entries :: lines)

/--
An entry is rendered as a line that shows it, in which only its label can hold a
line feed.
-/
theorem exists_line (entry : String × Address) :
    ∃ line, renderEntry entry = line ++ "\n" ∧ Shows line entry ∧
      ('\n' ∉ entry.1.toList → '\n' ∉ line.toList) := by
  have digit : ∀ digit < 16, Text.hexDigit digit ≠ '\n' := by decide
  have digits : '\n' ∉ (Text.hexUpper 3 entry.2.toNat).toList := by
    intro member
    obtain ⟨figure, small, same⟩ := Text.mem_hexUpper member
    exact digit figure small same.symm
  refine ⟨_, rfl, ⟨_, ?_, ?_, Text.isNumeral_hexUpper 3 entry.2.toNat⟩, ?_⟩
  · simp [List.rightpad, String.append_assoc, String.length_toList]
  · rw [Text.hexUpper, String.length_ofList, List.length_leftpad]
    exact Nat.le_max_left 3 _
  · intro whole
    simp [List.rightpad, whole, digits]

theorem exists_lines (entries : List (String × Address)) :
    ∃ lines, String.join (entries.map renderEntry) = terminated lines ∧
      List.Forall₂ Shows lines entries ∧
      ((∀ entry ∈ entries, '\n' ∉ entry.1.toList) →
        ∀ line ∈ lines, '\n' ∉ line.toList) := by
  induction entries with
  | nil => exact ⟨[], rfl, .nil, by simp⟩
  | cons entry rest ih =>
      rcases exists_line entry with ⟨line, rendered, shows, whole⟩
      rcases ih with ⟨lines, others, showsOthers, wholeOthers⟩
      refine ⟨line :: lines, ?_, .cons shows showsOthers, ?_⟩
      · rw [List.map_cons, String.join_cons, rendered, others]
        simp [terminated]
      · rw [List.forall_mem_cons, List.forall_mem_cons]
        exact And.imp whole wholeOthers

/-- The listing of a table lists its entries as they are sorted. -/
theorem lists_render (table : SymbolTable) :
    Lists table.render table.sorted := by
  rcases exists_lines table.sorted with ⟨lines, rendered, shows, whole⟩
  have text : table.render = terminated (heading table.sorted :: lines) := by
    have empties : table.sorted = [] ↔ table.entries = [] := by
      rw [← List.length_eq_zero_iff, sorted, List.length_mergeSort,
        List.length_eq_zero_iff]
    rw [render, rendered, heading]
    by_cases none : table.entries = []
    · have noLines : lines = [] := by
        rw [empties.mpr none] at shows
        exact List.forall₂_nil_right_iff.mp shows
      rw [if_pos (List.isEmpty_iff.mpr none),
        if_pos (empties.mpr none), noLines]
      rfl
    · rw [if_neg (mt List.isEmpty_iff.mp none), if_neg (mt empties.mp none)]
      simp [terminated]
  refine ⟨lines, shows, text, ?_⟩
  intro inside
  rw [text, linesOf_terminated]
  refine List.forall_mem_cons.mpr ⟨?_, whole inside⟩
  rw [heading]
  split <;> decide

/--
The first entry has the lower address, or the same one and its label was
declared earlier.
-/
def Precedes (table : SymbolTable) (first second : String × Address) : Prop :=
  first.2 < second.2 ∨
    first.2 = second.2 ∧ table.names.idxOf first.1 < table.names.idxOf second.1

theorem idxOf_names {table : SymbolTable} (distinct : table.names.Nodup)
    {place : Nat} {entry : String × Address}
    (found : table.entries[place]? = some entry) :
    table.names.idxOf entry.1 = place := by
  have there : table.names[place]? = some entry.1 := by
    rw [names, List.getElem?_map, found, Option.map_some]
  rcases List.getElem?_eq_some_iff.mp there with ⟨inside, isName⟩
  rw [← isName, distinct.idxOf_getElem]

/--
Sorting brings the entries in order of their addresses and keeps the order of
equal ones.  Each entry is sorted together with its place in the table, which
decides between equal ones.
-/
theorem pairwise_sorted {table : SymbolTable} (distinct : table.names.Nodup) :
    table.sorted.Pairwise table.Precedes := by
  let atMost (first second : String × Address) : Bool :=
    decide (first.2 ≤ second.2)
  have trans : ∀ first second third, atMost first second → atMost second third →
      atMost first third := by
    simp only [atMost, decide_eq_true_eq]
    exact fun _ _ _ => UInt32.le_trans
  have total : ∀ first second, atMost first second || atMost second first := by
    simp only [atMost, Bool.or_eq_true, decide_eq_true_eq]
    exact fun first second => UInt32.le_total first.2 second.2
  let placed := table.entries.zipIdx.mergeSort (List.zipIdxLE atMost)
  have inOrder : placed.Pairwise (List.zipIdxLE atMost · ·) :=
    List.pairwise_mergeSort (List.zipIdxLE_trans trans)
      (List.zipIdxLE_total total) _
  have apart : placed.Pairwise (fun first second => first.2 ≠ second.2) := by
    rw [← List.pairwise_map]
    have same :=
      (List.mergeSort_perm table.entries.zipIdx (List.zipIdxLE atMost)).map
        Prod.snd
    exact same.nodup_iff.mpr (List.nodup_zipIdx_map_snd table.entries)
  have places : ∀ entry ∈ placed, table.names.idxOf entry.1.1 = entry.2 := by
    intro entry member
    exact idxOf_names distinct
      (List.mem_zipIdx_iff_getElem?.mp (List.mem_mergeSort.mp member))
  change (table.entries.mergeSort atMost).Pairwise _
  rw [← List.mergeSort_zipIdx, List.pairwise_map]
  refine List.Pairwise.imp_of_mem ?_ (inOrder.and apart)
  intro first second inFirst inSecond both
  rcases both with ⟨sorted, differ⟩
  rw [Precedes, places first inFirst, places second inSecond]
  simp only [List.zipIdxLE, atMost, decide_eq_true_eq] at sorted
  split at sorted
  case isTrue low =>
    split at sorted
    case isTrue high =>
      have earlier := of_decide_eq_true sorted
      exact Or.inr ⟨UInt32.le_antisymm low high,
        Nat.lt_of_le_of_ne earlier differ⟩
    case isFalse notHigh => exact Or.inl (UInt32.not_le.mp notHigh)
  case isFalse => cases sorted

/--
What a table tells about the calls that were made on it: its labels, their
addresses and its listing, which shows each label once, by address and then in
the order of declaration.
-/
structure Reflects (calls : List (String × Address)) (table : SymbolTable) :
    Prop extends Records calls table where
  distinct : table.names.Nodup
  known : ∀ name, name ∈ table.names ↔ name ∈ called calls
  bound : ∀ name, (∃ address, table.lookup name = some address) ↔
    name ∈ table.names
  entries : ∀ name address, (name, address) ∈ table.entries ↔
    calls.lookup name = some address
  size : table.size = table.names.length
  listing : ∃ listed : List (String × Address), listed.Perm table.entries ∧
    listed.Pairwise table.Precedes ∧ Lists table.render listed

theorem Records.reflects {calls : List (String × Address)} {table : SymbolTable}
    (records : Records calls table) : Reflects calls table where
  toRecords := records
  distinct := records.nodup_names
  known _ := records.mem_names_iff
  bound _ := exists_lookup_iff
  entries _ _ := records.mem_entries_iff
  size := table.length_names.symm
  listing :=
    ⟨table.sorted, List.mergeSort_perm _ _, pairwise_sorted records.nodup_names,
    table.lists_render⟩

end SymbolTable

/-! ## A table in two parts -/

/-- The addresses by label, and the labels in the order of their definition. -/
structure PairedTable where
  labels : Finmap (fun _ : String => Address)
  order : List String

namespace PairedTable

def empty : PairedTable := ⟨∅, []⟩

/-- Define a label in both parts, unless the addresses have it. -/
def define (table : PairedTable) (name : String) (address : Address) :
    Except Fault Unit × PairedTable :=
  if name ∈ table.labels then
    (.error (.repeatedLabel name), table)
  else
    (.ok (), ⟨table.labels.insert name address, table.order ++ [name]⟩)

/-- The table after calls on an empty table. -/
def afterCalls (calls : List (String × Address)) : PairedTable :=
  calls.foldl (fun table call => (table.define call.1 call.2).2) .empty

/-- The address that the listing shows for a label. -/
def address (table : PairedTable) (name : String) : Address :=
  (table.labels.lookup name).getD 0

/--
The entries of the listing: the labels are sorted, and their addresses looked
up.
-/
def listed (table : PairedTable) : List (String × Address) :=
  (table.order.mergeSort
      (fun first second => table.address first ≤ table.address second)).map
    (fun name => (name, table.address name))

/-- The two parts hold what a single table does. -/
structure Follows (table : PairedTable) (single : SymbolTable) : Prop where
  lookup : ∀ name, table.labels.lookup name = single.lookup name
  order : table.order = single.names

namespace Follows

variable {table : PairedTable} {single : SymbolTable}
  (follows : Follows table single)

include follows

theorem mem_labels_iff {name : String} :
    name ∈ table.labels ↔ name ∈ single.names := by
  rw [Finmap.mem_iff, ← SymbolTable.exists_lookup_iff]
  simp only [follows.lookup]

theorem define (name : String) (address : Address) :
    (table.define name address).1 =
      (single.define name address).map (fun _ => ()) ∧
      Follows (table.define name address).2
        (single.attempt (name, address)) := by
  by_cases known : name ∈ single.names
  · rw [PairedTable.define, if_pos (follows.mem_labels_iff.mpr known),
      SymbolTable.attempt, SymbolTable.define_of_known known]
    exact ⟨rfl, follows⟩
  · rw [PairedTable.define, if_neg (mt follows.mem_labels_iff.mp known),
      SymbolTable.attempt, SymbolTable.define_of_fresh known]
    refine ⟨rfl, ?_, ?_⟩
    · intro other
      rw [SymbolTable.lookup]
      by_cases same : other = name
      · subst same
        have absent : single.entries.lookup other = none :=
          SymbolTable.lookup_eq_none_iff.mpr known
        rw [Finmap.lookup_insert, SymbolTable.lookup_concat_self, absent,
          Option.none_or]
      · rw [Finmap.lookup_insert_of_ne _ same,
          SymbolTable.lookup_concat_of_ne _ same]
        exact follows.lookup other
    · rw [SymbolTable.names_concat, follows.order]

theorem card_labels (distinct : single.names.Nodup) :
    table.labels.keys.card = single.size := by
  have keys : table.labels.keys = single.names.toFinset := by
    ext name
    rw [Finmap.mem_keys, follows.mem_labels_iff, List.mem_toFinset]
  rw [keys, List.toFinset_card_of_nodup distinct, SymbolTable.length_names]

theorem listed_eq (distinct : single.names.Nodup) :
    table.listed = single.sorted := by
  have addresses : ∀ entry ∈ single.entries,
      table.address entry.1 = entry.2 := by
    intro entry member
    rw [PairedTable.address, follows.lookup,
      (SymbolTable.lookup_eq_some_iff distinct).mpr member, Option.getD_some]
  have sorted : table.order.mergeSort
      (fun first second => table.address first ≤ table.address second) =
        single.sorted.map Prod.fst := by
    rw [follows.order, SymbolTable.sorted, SymbolTable.names,
      List.map_mergeSort]
    intro first inFirst second inSecond
    rw [addresses first inFirst, addresses second inSecond]
  have looked : ∀ entry ∈ single.sorted,
      (entry.1, table.address entry.1) = entry := by
    intro entry member
    rw [addresses entry (List.mem_mergeSort.mp member)]
  rw [listed, sorted, List.map_map]
  exact (List.map_congr_left looked).trans (List.map_id _)

end Follows

theorem follows_afterCalls (calls : List (String × Address)) :
    Follows (afterCalls calls) (SymbolTable.afterCalls calls) := by
  induction calls using List.reverseRecOn with
  | nil => exact ⟨fun name => Finmap.lookup_empty name, rfl⟩
  | append_singleton earlier call ih =>
      rw [SymbolTable.afterCalls_concat, afterCalls, List.foldl_append]
      exact (ih.define call.1 call.2).2

theorem define_eq_self {table : PairedTable} {name : String} {address : Address}
    {fault : Fault} (refused : (table.define name address).1 = .error fault) :
    (table.define name address).2 = table := by
  unfold define at refused ⊢
  split at refused
  case isTrue known => rw [if_pos known]
  case isFalse => cases refused

/--
The parts of a table agree with a single table in all that they can be asked.
-/
structure InStep (table : PairedTable) (single : SymbolTable) : Prop
    extends Follows table single where
  count : table.labels.keys.card = single.size
  listing : SymbolTable.Lists single.render table.listed
  answer : ∀ name address,
    (table.define name address).1 =
      (single.define name address).map (fun _ => ())
  refused : ∀ name address fault, (table.define name address).1 = .error fault →
    (table.define name address).2 = table

end PairedTable

/--
After any sequence of definitions, a definition is refused exactly if its label
was named before, and then changes nothing.  The table holds the first
definition of each label, in their order, and lists them by address, with a line
for each unless a label holds a line feed.  A table that is kept in two parts
agrees with it.
-/
theorem SymbolTable.definitions_recorded (calls : List (String × Address)) :
    (∀ name address,
      ((∃ fault, (afterCalls calls).define name address = .error fault) ↔
        name ∈ called calls) ∧
      ∀ fault, (afterCalls calls).define name address = .error fault →
        fault.kind = .labels ∧ afterCalls (calls ++ [(name, address)]) =
          afterCalls calls) ∧
    Reflects calls (afterCalls calls) ∧
    (PairedTable.afterCalls calls).InStep (afterCalls calls) := by
  have records := records_afterCalls calls
  have follows := PairedTable.follows_afterCalls calls
  have distinct := records.nodup_names
  have listing :
      Lists (afterCalls calls).render
        (PairedTable.afterCalls calls).listed := by
    rw [follows.listed_eq distinct]
    exact lists_render _
  refine ⟨?_, records.reflects, ⟨follows, follows.card_labels distinct, listing,
    fun name address => (follows.define name address).1,
    fun _ _ _ => PairedTable.define_eq_self⟩⟩
  intro name address
  rw [afterCalls_concat, attempt, ← records.mem_names_iff]
  by_cases known : name ∈ (afterCalls calls).names
  · simp [define_of_known known, known, Fault.kind]
  · simp [define_of_fresh known, known]

/--
A label that holds a line feed is one label, but two lines of the listing.
-/
theorem SymbolTable.label_of_two_lines :
    (afterCalls [("A\nB", 1)]).names = ["A\nB"] ∧
      linesOf (afterCalls [("A\nB", 1)]).render =
        ["Labels:", "  A", "B                   0x001"] ∧
      (linesOf (afterCalls [("A\nB", 1)]).render).length ≠
        (afterCalls [("A\nB", 1)]).names.length + 1 := by
  decide +kernel

end Asm24.Assembly

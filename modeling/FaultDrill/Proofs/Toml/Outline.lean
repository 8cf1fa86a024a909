import FaultDrill.Proofs.Toml.Value
import FaultDrill.Toml.Outline

/-!
The tree of a TOML text grows line by line.

Owns:
- what the entries of a table should be, and which outlines are on the way to such entries
  (`Fills`);
- lines that lead from outlines of one kind to outlines of another (`Leads`): entries, headers in
  double brackets, and lines that hold nothing.

Main statements: an entry adds to the table that is being filled (`leads_entry`), and a header in
double brackets puts this table into its place and begins another (`leads_header`).
-/

namespace FaultDrill.Toml

open Reader TreeReader

/-! ## Expected entries -/

/-- What an entry should be: its name, and what its item should be. -/
abbrev Expected := List Char × (Item → Prop)

/-- Entries are what they should be. -/
def Meets (entries : List (Key × Item)) (expected : List Expected) : Prop :=
  List.Forall₂ (fun entry wanted => entry.1.name = wanted.1 ∧ wanted.2 entry.2) entries expected

/-- An item is a table with certain entries. -/
def IsTable (expected : List Expected) (item : Item) : Prop :=
  ∃ span role entries, item = .table span role entries ∧ Meets entries expected

/-- An item consists of certain tables. -/
def AreTables (elements : List (Item → Prop)) (item : Item) : Prop :=
  ∃ span tables, item = .tables span tables ∧
    List.Forall₂ (fun element (table : Option Span × TableRole × List (Key × Item)) =>
      element (.table table.1 table.2.1 table.2.2)) elements tables.reverse

theorem Meets.append {entries more : List (Key × Item)} {expected others : List Expected}
    (first : Meets entries expected) (second : Meets more others) :
    Meets (entries ++ more) (expected ++ others) :=
  List.rel_append first second

theorem Meets.exists_last {entries : List (Key × Item)} {earlier : List Expected}
    {wanted : Expected} (meets : Meets entries (earlier ++ [wanted])) :
    ∃ front key item, entries = front ++ [(key, item)] ∧ Meets front earlier ∧
      key.name = wanted.1 ∧ wanted.2 item := by
  have front := List.forall₂_take_append entries earlier [wanted] meets
  have last := List.forall₂_drop_append entries earlier [wanted] meets
  have whole : entries = entries.take earlier.length ++ entries.drop earlier.length :=
    (List.take_append_drop _ _).symm
  cases left : entries.drop earlier.length with
  | nil =>
      rw [left] at last
      cases last
  | cons entry more =>
      rw [left] at last whole
      cases last with
      | cons isWanted none =>
          cases none
          exact ⟨_, entry.1, entry.2, whole, front, isWanted.1, isWanted.2⟩

theorem Meets.ne_of_not_mem {entries : List (Key × Item)} {expected : List Expected}
    (meets : Meets entries expected) {name : List Char} (fresh : name ∉ expected.map Prod.fst) :
    ∀ entry ∈ entries, entry.1.name ≠ name := by
  induction meets with
  | nil => simp
  | cons isWanted _ inductionHypothesis =>
      rw [List.map_cons, List.mem_cons, not_or] at fresh
      intro entry member
      rcases List.mem_cons.mp member with rfl | later
      · rw [isWanted.1]
        exact fun same => fresh.1 same.symm
      · exact inductionHypothesis fresh.2 entry later

theorem find?_none {entries : List (Key × Item)} {name : List Char}
    (other : ∀ entry ∈ entries, entry.1.name ≠ name) :
    entries.find? (·.1.name == name) = none := by
  rw [List.find?_eq_none]
  exact fun entry member => by simpa using other entry member

theorem get?_of_fresh {table : Table} {expected : List Expected}
    (meets : Meets table.entries expected) {name : List Char}
    (fresh : name ∉ expected.map Prod.fst) : table.get? name = none := by
  unfold Table.get?
  rw [find?_none (meets.ne_of_not_mem fresh)]
  rfl

theorem get?_last {table : Table} {front : List (Key × Item)} {key : Key} {item : Item}
    (entries : table.entries = front ++ [(key, item)])
    (other : ∀ entry ∈ front, entry.1.name ≠ key.name) : table.get? key.name = some item := by
  unfold Table.get?
  rw [entries, List.find?_append, find?_none other, Option.none_or,
    List.find?_cons_of_pos (by simp)]
  rfl

theorem replace_last {table : Table} {front : List (Key × Item)} {key : Key} {item new : Item}
    (entries : table.entries = front ++ [(key, item)])
    (other : ∀ entry ∈ front, entry.1.name ≠ key.name) :
    (table.replace key.name new).entries = front ++ [(key, new)] := by
  have kept : (front.map fun entry =>
      (entry.1, if entry.1.name == key.name then new else entry.2)) = front := by
    rw [List.map_congr_left (g := id), List.map_id]
    rintro ⟨old, item⟩ member
    have apart := other (old, item) member
    simp [apart]
  unfold Table.replace
  rw [entries, List.map_append, kept]
  simp

/-! ## Outlines -/

/-- The table that is being filled has certain entries so far. Whatever entries it has in the end,
the whole document then has the entries that are given for these. -/
structure Fills (expected : List Expected) (closed : List Expected → List Expected)
    (outline : Outline) : Prop where
  role : outline.current.role = .header
  entries : Meets outline.current.entries expected
  closes : ∀ (current : Table) (final : List Expected), current.role = .header →
    Meets current.entries final →
      ∃ table, { outline with current }.closeTable = some table ∧ Meets table.entries (closed final)

theorem fills_start : Fills [] id {} where
  role := rfl
  entries := .nil
  closes current _ _ meets := ⟨current, rfl, meets⟩

variable {expected earlier : List Expected} {closed : List Expected → List Expected}
  {outline : Outline}

theorem Fills.closeTable (fills : Fills expected closed outline) :
    ∃ table, outline.closeTable = some table ∧ Meets table.entries (closed expected) :=
  fills.closes outline.current expected fills.role fills.entries

theorem Fills.define (fills : Fills expected closed outline) {key : Key} {item : Item}
    {holds : Item → Prop} (fresh : key.name ∉ expected.map Prod.fst) (isWanted : holds item) :
    ∃ after, outline.define [] key item = some after ∧
      Fills (expected ++ [(key.name, holds)]) closed after := by
  have free : outline.current.get? key.name = none := get?_of_fresh fills.entries fresh
  have inserted : outline.current.insert [] key item = some (outline.current.push key item) := by
    unfold Table.insert Table.within Table.define
    rw [fills.role, free]
    rfl
  unfold Outline.define
  rw [inserted]
  refine ⟨_, rfl, fills.role, ?_, fills.closes⟩
  exact fills.entries.append (.cons ⟨rfl, isWanted⟩ .nil)

/-- A table that is one of several is put behind those that are already there. -/
theorem fills_element {root : Table} {key : Key} {elements : List (Item → Prop)} (span : Span)
    (meets : Meets root.entries (earlier ++ [(key.name, AreTables elements)]))
    (fresh : key.name ∉ earlier.map Prod.fst) :
    Fills [] (fun final => earlier ++ [(key.name, AreTables (elements ++ [IsTable final]))])
      { root, current := { span }, path := some ([], key), repeated := true } where
  role := rfl
  entries := .nil
  closes := by
    intro current final _ finally'
    obtain ⟨front, key', item, entries, before, name, isTables⟩ := meets.exists_last
    obtain ⟨place, tables, rfl, each⟩ := isTables
    dsimp only at name
    have other : ∀ entry ∈ front, entry.1.name ≠ key'.name := by
      rw [name]
      exact before.ne_of_not_mem fresh
    have found := get?_last entries other
    rw [name] at found
    unfold Outline.closeTable Table.within Outline.closeTable.place
    simp only [found]
    refine ⟨_, rfl, ?_⟩
    rw [← name, replace_last entries other, ← name] at *
    refine before.append (.cons ⟨rfl, _, _, rfl, ?_⟩ .nil)
    rw [List.reverse_cons]
    exact List.rel_append each (.cons ⟨_, _, _, rfl, finally'⟩ .nil)

/-- A header may be the first of its name, or one of several. -/
theorem openElement_eq {root : Table} {key : Key} {elements : List (Item → Prop)} (span : Span)
    {entries : List Expected} (meets : Meets root.entries entries)
    (fresh : key.name ∉ earlier.map Prod.fst)
    (isRoot : entries = earlier ++ [(key.name, AreTables elements)] ∨
      entries = earlier ∧ elements = []) :
    ∃ after, Outline.openElement root [] key span = some after ∧
      Fills [] (fun final => earlier ++ [(key.name, AreTables (elements ++ [IsTable final]))])
        after := by
  unfold Outline.openElement Table.within Outline.openElement.check
  rcases isRoot with rfl | ⟨rfl, rfl⟩
  · obtain ⟨front, key', item, last, before, name, place, tables, rfl, -⟩ := meets.exists_last
    dsimp only at name
    have found : root.get? key.name = some (.tables place tables) := by
      rw [← name]
      exact get?_last last (by rw [name]; exact before.ne_of_not_mem fresh)
    rw [found]
    exact ⟨_, rfl, fills_element span meets fresh⟩
  · have free : root.get? key.name = none := get?_of_fresh meets fresh
    have empty : AreTables [] (.tables none []) := ⟨none, [], rfl, .nil⟩
    have pushed : Meets (root.push key (.tables none [])).entries
        (entries ++ [(key.name, AreTables [])]) := meets.append (.cons ⟨rfl, empty⟩ .nil)
    rw [free]
    exact ⟨_, rfl, fills_element span pushed fresh⟩

/-! ## Keys -/

/-- A name that needs no quotes. -/
def Bare (name : List Char) : Prop :=
  name ≠ [] ∧ name.all isKeyChar = true

instance (name : List Char) : Decidable (Bare name) :=
  inferInstanceAs (Decidable (_ ∧ _))

theorem Bare.head_ne {name : List Char} (bare : Bare name) {char : Char}
    (outside : isKeyChar char = false) (after : List Char) : (name ++ after).head? ≠ some char := by
  obtain ⟨first, more, rfl⟩ := List.exists_cons_of_ne_nil bare.1
  have inside : isKeyChar first = true := List.all_eq_true.mp bare.2 first List.mem_cons_self
  rw [List.cons_append, List.head?_cons, ne_eq, Option.some.injEq]
  rintro rfl
  rw [inside] at outside
  cases outside

theorem Bare.unblank {name : List Char} (bare : Bare name) (after : List Char) :
    Unblank (name ++ after) := by
  obtain ⟨first, more, rfl⟩ := List.exists_cons_of_ne_nil bare.1
  have space : (first :: more ++ after).head? ≠ some ' ' := bare.head_ne (by decide) after
  have tab : (first :: more ++ after).head? ≠ some '\t' := bare.head_ne (by decide) after
  simp only [List.cons_append, List.head?_cons, ne_eq, Option.some.injEq] at space tab
  simp [Unblank, isBlank, space, tab]

section Keys

variable {name gap rest : List Char} (bare : Bare name)
  (ends : (gap ++ rest).head?.all (!isKeyChar ·) = true)

include bare ends

theorem reads_simpleKey : Reads simpleKey name (gap ++ rest) fun key => key.name = name := by
  have run : Takes (do
      let name ← takeWhile isKeyChar
      require (!name.isEmpty)
      return name) name (gap ++ rest) name := by
    have some' : (!name.isEmpty) = true := by simpa using bare.1
    refine Takes.bind_done (takes_takeWhile name (List.all_eq_true.mp bare.2) ends) ?_
    exact Takes.bind_look (takes_require some' _) (takes_pure name _)
  have spanned {reader : Reader (List Char)} (reads : Reads reader name (gap ++ rest) (· = name)) :
      Reads (withSpan reader) name (gap ++ rest) fun read => read.1 = name := reads.withSpan
  refine Reads.bind_done (spanned (reads_rest_bind ?_)) ?_
  · split
    · next same => exact absurd (by rw [same, List.head?_cons]) (bare.head_ne (by decide) _)
    · next same => exact absurd (by rw [same, List.head?_cons]) (bare.head_ne (by decide) _)
    · exact run.reads rfl
  · rintro ⟨text, span⟩ same
    exact (takes_pure _ _).reads same

/-- A name without quotes is a key of one part, with white space after it. -/
theorem reads_key (blank : ∀ char ∈ gap, isBlank char = true) (unblank : Unblank rest)
    (noPoint : rest.head? ≠ some '.') :
    Reads Reader.key (name ++ gap) rest fun key => key.1 = [] ∧ key.2.name = name := by
  have parts : Reads (keyParts ((name ++ gap ++ rest).length + 1)) (name ++ gap) rest
      fun parts => ∃ key, parts = [key] ∧ key.name = name := by
    refine Takes.bind_look_reads (takes_blanks_none ?_) ?_
    · rw [List.append_assoc]
      exact bare.unblank (gap ++ rest)
    refine Reads.bind (reads_simpleKey bare ends) fun key named => ?_
    refine Takes.reads ?_ ⟨key, rfl, named⟩
    refine Takes.bind_done (takes_blanks gap blank unblank) ?_
    exact Takes.bind_look (takes_tryTake_head noPoint) (takes_pure [key] rest)
  refine reads_rest_bind (Reads.bind_done parts ?_)
  rintro _ ⟨key, rfl, named⟩
  exact Takes.bind_look_reads (takes_require rfl rest) ((takes_pure _ rest).reads ⟨rfl, named⟩)

end Keys

/-! ## Lines -/

/-- Lines lead from any outline of one kind to one of another, whatever follows. -/
def Leads (text : List Char) (before after : Outline → Prop) : Prop :=
  ∀ outline, before outline → ∀ rest steps position, (text ++ rest).length < steps →
    ∃ outline' steps' position', after outline' ∧ rest.length < steps' ∧
      lines steps outline ⟨text ++ rest, position⟩ = lines steps' outline' ⟨rest, position'⟩

variable {before between after : Outline → Prop}

theorem leads_nil (before : Outline → Prop) : Leads [] before before :=
  fun outline holds _ steps position enough => ⟨outline, steps, position, holds, enough, rfl⟩

theorem Leads.mono {text : List Char} (leads : Leads text before after)
    {stronger weaker : Outline → Prop} (implies : ∀ outline, stronger outline → before outline)
    (implied : ∀ outline, after outline → weaker outline) : Leads text stronger weaker := by
  intro outline holds rest steps position enough
  obtain ⟨outline', steps', position', holdsAfter, ran⟩ :=
    leads outline (implies outline holds) rest steps position enough
  exact ⟨outline', steps', position', implied outline' holdsAfter, ran⟩

theorem Leads.append {text more : List Char} (first : Leads text before between)
    (second : Leads more between after) : Leads (text ++ more) before after := by
  intro outline holds rest steps position enough
  rw [List.append_assoc] at enough ⊢
  obtain ⟨_, _, _, holdsBetween, enoughBetween, ran⟩ :=
    first outline holds (more ++ rest) steps position enough
  obtain ⟨_, _, _, holdsAfter, enoughAfter, ranOn⟩ :=
    second _ holdsBetween rest _ _ enoughBetween
  exact ⟨_, _, _, holdsAfter, enoughAfter, ran.trans ranOn⟩

theorem leads_line {first : Char} {more : List Char} (visible : isBlank first = false)
    (reads : ∀ outline, before outline → ∀ rest, Reads (line outline) (first :: more) rest after) :
    Leads (first :: more) before after := by
  intro outline holds rest steps position enough
  obtain ⟨steps, rfl, fewer⟩ := exists_step enough
  have unblank : Unblank (first :: more ++ rest) := by simp [Unblank, visible]
  obtain ⟨start, blank⟩ := takes_blanks_none unblank position
  obtain ⟨outline', position', ran, holdsAfter⟩ := reads outline holds rest start
  refine ⟨outline', steps, position', holdsAfter, ?_, ?_⟩
  · simp only [List.length_append, List.length_cons] at fewer
    omega
  · have lined : (line outline >>= lines steps) ⟨first :: more ++ rest, start⟩ =
        lines steps outline' ⟨rest, position'⟩ := run_bind ran
    exact (run_bind blank).trans lined

/-- A line that holds nothing. -/
theorem leads_break (before : Outline → Prop) : Leads ['\n'] before before := by
  refine leads_line (by decide) fun outline holds rest => reads_rest_bind ?_
  exact (Takes.bind_done (takes_lineEnd rest) (takes_pure outline rest)).reads holds

theorem takes_word (text rest : List Char) : Takes (word text) text rest () :=
  Takes.bind_done (takes_tryTake text rest) (takes_require rfl rest)

/-- The line of an entry. -/
theorem leads_entry {Value : Type} {reader : TreeReader Value} {name text : List Char}
    {value : Value} (bare : Bare name) (fresh : name ∉ expected.map Prod.fst)
    (denotes : Denotes reader (depthLimit - 1) text value) :
    Leads (name ++ " = ".toList ++ text ++ ['\n']) (Fills expected closed)
      (Fills (expected ++ [(name, Holds reader value)]) closed) := by
  obtain ⟨first, more, start⟩ := List.exists_cons_of_ne_nil bare.1
  have visible : isBlank first = false := by
    have unblank := bare.unblank []
    rw [start] at unblank
    simpa [Unblank] using unblank
  have source : name ++ " = ".toList ++ text ++ ['\n'] =
      name ++ [' '] ++ '=' :: ' ' :: (text ++ ['\n']) := by simp
  have entry : ∀ outline, Fills expected closed outline → ∀ rest, Reads (do
      let parts ← Reader.key
      Reader.char '='
      blanks
      let item ← item
      lineEnd
      outline.define parts.1 parts.2 item) (name ++ [' '] ++ '=' :: ' ' :: (text ++ ['\n'])) rest
        (Fills (expected ++ [(name, Holds reader value)]) closed) := by
    intro outline fills rest
    obtain ⟨letter, others, begins, textVisible, -⟩ := denotes.starts
    have unblank : Unblank (text ++ ['\n'] ++ rest) := by
      simp [Unblank, begins, textVisible]
    have ended : Ended (['\n'] ++ rest) := ended_cons (by decide) rest
    refine Reads.bind (reads_key bare (by rfl) (by simp [isBlank]) rfl (by simp)) ?_
    rintro ⟨path, key⟩ ⟨rfl, named⟩
    dsimp only at named
    subst named
    refine Takes.bind_cons_reads (takes_char '=' _) ?_
    refine Takes.bind_cons_reads (takes_blank unblank) ?_
    have read : Reads item text (['\n'] ++ rest) (Holds reader value) :=
      reads_rest_bind (denotes.reads ended (by simp; omega))
    refine Reads.bind read fun item holds => ?_
    obtain ⟨outline', defined, fillsAfter⟩ := fills.define fresh holds
    refine Takes.reads (Takes.bind_done (takes_lineEnd rest) ?_) fillsAfter
    exact takes_lift defined rest
  rw [source]
  rw [start] at entry ⊢
  refine leads_line visible fun outline fills rest => reads_rest_bind ?_
  have apart : ∀ {char : Char} {after : List Char}, isKeyChar char = false →
      first :: more ++ [' '] ++ '=' :: ' ' :: (text ++ ['\n']) ++ rest ≠ char :: after := by
    intro char after outside same
    have head := bare.head_ne outside ([' '] ++ '=' :: ' ' :: (text ++ ['\n']) ++ rest)
    rw [start] at head
    exact head (by rw [← List.head?_cons (a := char) (l := after), ← same]; simp)
  split
  case h_6 => exact entry outline fills rest
  all_goals
    next same => exact absurd same (apart (by decide))

/-- The line of a header in double brackets: the first of its name, or one of several. -/
theorem leads_header {name : List Char} {elements : List (Item → Prop)} (bare : Bare name)
    (fresh : name ∉ earlier.map Prod.fst)
    (isClosed : closed expected = earlier ++ [(name, AreTables elements)] ∨
      closed expected = earlier ∧ elements = []) :
    Leads ("[[".toList ++ name ++ "]]\n".toList) (Fills expected closed)
      (Fills [] fun final => earlier ++ [(name, AreTables (elements ++ [IsTable final]))]) := by
  have source : "[[".toList ++ name ++ "]]\n".toList =
      '[' :: ('[' :: (name ++ [']', ']'] ++ ['\n'])) := by simp
  rw [source]
  refine leads_line (by decide) fun outline fills rest => reads_rest_bind ?_
  have header : Reads (do
      skip 2
      headerKey [']', ']']) (['[', '['] ++ (name ++ [']', ']'])) (['\n'] ++ rest)
        fun key => key.1 = [] ∧ key.2.name = name := by
    refine Takes.bind_reads (takes_skip ['[', '['] _) ?_
    have key : Reads Reader.key (name ++ []) ([']', ']'] ++ (['\n'] ++ rest))
        fun key => key.1 = [] ∧ key.2.name = name :=
      reads_key bare (by rfl) (by simp) rfl (by simp)
    rw [List.append_nil] at key
    refine Reads.bind key fun key named => ?_
    exact (Takes.bind_done (takes_word [']', ']'] _) (takes_pure key _)).reads named
  have parts : '[' :: ('[' :: (name ++ [']', ']'] ++ ['\n'])) =
      ['[', '['] ++ (name ++ [']', ']']) ++ ['\n'] := by simp
  rw [parts]
  dsimp only
  refine Reads.bind header.withSpan ?_
  rintro ⟨⟨path, key⟩, span⟩ ⟨rfl, named⟩
  dsimp only at named
  subst named
  obtain ⟨root, closes, meets⟩ := fills.closeTable
  obtain ⟨outline', opens, fillsAfter⟩ := openElement_eq span meets fresh isClosed
  refine Takes.reads (Takes.bind_done (takes_lineEnd rest) ?_) fillsAfter
  exact Takes.bind_look (takes_lift closes rest) (takes_lift opens rest)

/-! ## Whole texts -/

/-- A text whose lines lead to certain entries has a tree with these. -/
theorem exists_ofText {text : List Char} {final : List Expected}
    (noMark : text.head? ≠ some byteOrderMark)
    (leads : Leads text (Fills [] id) fun outline =>
      ∃ table, outline.closeTable = some table ∧ Meets table.entries final) :
    ∃ table, Table.ofText? text = some table ∧ Meets table.entries final := by
  have unmarked : Takes (tryTake [byteOrderMark]) [] text false := takes_tryTake_head noMark
  obtain ⟨start, ran⟩ := unmarked 0
  obtain ⟨outline, steps, position, ⟨table, closes, meets⟩, enough, lined⟩ :=
    leads {} fills_start [] (text.length + 1) start (by simp)
  obtain ⟨steps, rfl, -⟩ := exists_step enough
  have closing : Takes (lines (steps + 1) outline) [] [] table :=
    Takes.bind_look (takes_blanks_none rfl) (takes_rest_bind (takes_lift closes []))
  obtain ⟨last, ended⟩ := closing position
  refine ⟨table, ?_, meets⟩
  rw [List.append_nil] at lined
  have whole : (do
      let _ ← tryTake [byteOrderMark]
      lines ((← Reader.rest).length + 1) {} : Reader Table) ⟨text, 0⟩ = some (table, ⟨[], last⟩) :=
    (run_bind ran).trans (lined.trans ended)
  change ((do
      let _ ← tryTake [byteOrderMark]
      lines ((← Reader.rest).length + 1) {} : Reader Table) ⟨text, 0⟩).map (·.1) = _
  rw [whole]
  rfl

end FaultDrill.Toml

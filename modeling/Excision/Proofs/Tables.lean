import Excision.Proofs.Lookup
import Excision.Proofs.Sequence
import Excision.Toml.Document

/-!
# The tables of a document

No key stands twice in a table, and a table is put in the order of its keys when it is finished. So
every table that a document means has its keys in strictly increasing order, and so has every table
inside of it (`Toml.isOrdered_of_parse`).

A growing table is not in order yet, but its keys are distinct all the time, for a key that gets
another growth is taken out first (`Growing.IsDistinct.set`). Changes go down a path, so what has to
be said of a change is that it keeps the keys distinct where it is made (`Growing.Change.Keeps`),
and it does so then from wherever the path starts (`Growing.Change.Keeps.changeAt`). All statements
are made of such changes.
-/

set_option autoImplicit false

namespace Excision.Toml

/-! ## Order and distinctness -/

/-- Whether every table in a value has its keys in strictly increasing order. -/
inductive Value.IsOrdered : Value → Prop where
  | string (text : String) : IsOrdered (.string text)
  | integer (value : Option Int) : IsOrdered (.integer value)
  | float (value : Option Float) : IsOrdered (.float value)
  | boolean (value : Bool) : IsOrdered (.boolean value)
  | moment (text : String) : IsOrdered (.moment text)
  | array {items : List Value} (hitems : ∀ item ∈ items, IsOrdered item) : IsOrdered (.array items)
  | table {members : List (String × Value)} (hkeys : (members.map Prod.fst).Pairwise (· < ·))
      (hmembers : ∀ entry ∈ members, IsOrdered entry.2) : IsOrdered (.table members)

/-- Whether the keys of a table and of all tables in it are in strictly increasing order. -/
def IsOrdered (members : Members) : Prop :=
  (members.map Prod.fst).Pairwise (· < ·) ∧ ∀ entry ∈ members, entry.2.IsOrdered

theorem nodup_of_pairwise_lt {keys : List String} (h : keys.Pairwise (· < ·)) : keys.Nodup :=
  h.imp fun hlt => String.ne_of_lt hlt

/-- Whether no table in a growth has a key twice. What is finished in it is in order. -/
inductive Growth.IsDistinct : Growth → Prop where
  | value {value : Value} (hvalue : value.IsOrdered) : IsDistinct (.value value)
  | table {origin : Origin} {members : List (String × Growth)}
      (hkeys : (members.map Prod.fst).Nodup) (hmembers : ∀ entry ∈ members, IsDistinct entry.2) :
      IsDistinct (.table origin members)
  | tables {tables : List (List (String × Growth))}
      (hkeys : ∀ members ∈ tables, (members.map Prod.fst).Nodup)
      (hmembers : ∀ members ∈ tables, ∀ entry ∈ members, IsDistinct entry.2) :
      IsDistinct (.tables tables)

/-- Whether neither a growing table nor one inside of it has a key twice. -/
def Growing.IsDistinct (members : Growing) : Prop :=
  (members.map Prod.fst).Nodup ∧ ∀ entry ∈ members, entry.2.IsDistinct

/-! ## Sorting -/

theorem sortMembers_perm (members : Members) : (sortMembers members).Perm members :=
  List.mergeSort_perm _ _

theorem map_fst_sortMembers_pairwise {members : Members} (h : (members.map Prod.fst).Nodup) :
    ((sortMembers members).map Prod.fst).Pairwise (· < ·) := by
  have hle : (sortMembers members).Pairwise fun a b => a.1 ≤ b.1 := by
    have hsorted : (sortMembers members).Pairwise fun a b => decide (a.1 ≤ b.1) = true := by
      apply List.pairwise_mergeSort
      · intro a b c hab hbc
        exact decide_eq_true (String.le_trans (of_decide_eq_true hab) (of_decide_eq_true hbc))
      · intro a b
        simpa using String.le_total a.1 b.1
    exact hsorted.imp of_decide_eq_true
  have hne : ((sortMembers members).map Prod.fst).Nodup :=
    ((sortMembers_perm members).map Prod.fst).nodup_iff.2 h
  -- neighbours in order that differ are strictly in order
  rw [List.pairwise_map]
  refine (hle.and (List.pairwise_map.1 hne)).imp ?_
  rintro a b ⟨hle, hne⟩
  exact String.not_le.1 fun hge => hne (String.le_antisymm hle hge)

theorem isOrdered_sortMembers {members : Members} (hkeys : (members.map Prod.fst).Nodup)
    (hmembers : ∀ entry ∈ members, entry.2.IsOrdered) : IsOrdered (sortMembers members) := by
  refine ⟨map_fst_sortMembers_pairwise hkeys, fun entry hentry => ?_⟩
  exact hmembers entry ((sortMembers_perm members).mem_iff.1 hentry)

theorem lookup_sortMembers {members : Members} (h : (members.map Prod.fst).Nodup) (key : String) :
    (sortMembers members).lookup key = members.lookup key :=
  (lookup_eq_of_perm (sortMembers_perm members).symm h).symm

/-! ## Finishing -/

theorem Growth.finishMembers_eq_map (members : Growing) :
    finishMembers members = members.map fun entry => (entry.1, entry.2.finish) := by
  induction members with
  | nil => rfl
  | cons entry members ih => rw [finishMembers, ih, List.map_cons]

theorem Growth.finishTables_eq_map (tables : List Growing) :
    finishTables tables =
      tables.map fun members => .table (sortMembers (finishMembers members)) := by
  induction tables with
  | nil => rfl
  | cons members tables ih => rw [finishTables, ih, List.map_cons]

theorem isOrdered_sortMembers_finishMembers {members : Growing}
    (hkeys : (members.map Prod.fst).Nodup)
    (hmembers : ∀ entry ∈ members, entry.2.finish.IsOrdered) :
    IsOrdered (sortMembers (Growth.finishMembers members)) := by
  rw [Growth.finishMembers_eq_map]
  apply isOrdered_sortMembers
  · rw [List.map_map]
    exact hkeys
  · intro entry hentry
    obtain ⟨grown, hgrown, rfl⟩ := List.mem_map.1 hentry
    exact hmembers grown hgrown

/-- What grows without a key twice is in order when it is finished. -/
theorem Growth.IsDistinct.finish {growth : Growth} (h : growth.IsDistinct) :
    growth.finish.IsOrdered := by
  induction h with
  | value hvalue =>
      rw [Growth.finish]
      exact hvalue
  | table hkeys hmembers ih =>
      rw [Growth.finish]
      obtain ⟨hkeys, hmembers⟩ := isOrdered_sortMembers_finishMembers hkeys ih
      exact .table hkeys hmembers
  | tables hkeys hmembers ih =>
      rw [Growth.finish, Growth.finishTables_eq_map]
      refine .array fun item hitem => ?_
      obtain ⟨members, hmem, rfl⟩ := List.mem_map.1 (List.mem_reverse.1 hitem)
      obtain ⟨hkeys, hmembers⟩ :=
        isOrdered_sortMembers_finishMembers (hkeys members hmem) (ih members hmem)
      exact .table hkeys hmembers

theorem Growing.IsDistinct.finish {members : Growing} (h : members.IsDistinct) :
    IsOrdered (sortMembers (Growth.finishMembers members)) :=
  isOrdered_sortMembers_finishMembers h.1 fun entry hentry => (h.2 entry hentry).finish

/-! ## Changes -/

namespace Growing

theorem isDistinct_nil : IsDistinct [] := ⟨List.nodup_nil, List.forall_mem_nil _⟩

variable {members : Growing} {key : String} {growth : Growth} {change : Change}

theorem IsDistinct.set (h : members.IsDistinct) (hgrowth : growth.IsDistinct) :
    (members.set key growth).IsDistinct := by
  constructor
  · rw [Growing.set, List.map_cons, List.nodup_cons]
    constructor
    · rintro hkey
      obtain ⟨entry, hentry, rfl⟩ := List.mem_map.1 hkey
      simp at hentry
    · exact h.1.sublist (List.filter_sublist.map Prod.fst)
  · refine List.forall_mem_cons.2 ⟨hgrowth, fun entry hentry => ?_⟩
    exact h.2 entry (List.mem_of_mem_filter hentry)

theorem IsDistinct.of_get? (h : members.IsDistinct) (hget : members.get? key = some growth) :
    growth.IsDistinct :=
  h.2 _ ((lookup_eq_some_iff_mem h.1).1 hget)

/-- Whether a change makes of a table without a key twice another one. -/
def Change.Keeps (change : Change) : Prop :=
  ∀ origin origin' members members', change origin members = .ok (origin', members') →
    IsDistinct members → IsDistinct members'

theorem Change.Keeps.apply (hchange : change.Keeps) {origin origin' : Origin} {members' : Growing}
    (h : change origin members = .ok (origin', members')) (hmembers : members.IsDistinct) :
    members'.IsDistinct :=
  hchange origin origin' members members' h hmembers

/-- A change at the end of a path keeps what the change itself keeps. -/
theorem Change.Keeps.changeAt (hchange : change.Keeps) (dotted : Bool) (path : List String) :
    (Growing.changeAt dotted path change).Keeps := by
  induction path with
  | nil => exact hchange
  | cons key path ih =>
      intro origin origin' members members' h hmembers
      rw [Growing.changeAt] at h
      split at h
      · -- nothing is there yet, so the change starts from an empty table
        obtain ⟨⟨inner, grown⟩, hgrown, h⟩ := exists_of_bind_eq_ok h
        cases h
        have hdistinct := Change.Keeps.apply ih hgrown isDistinct_nil
        exact hmembers.set (.table hdistinct.1 hdistinct.2)
      · cases h
      · next inner grown hget =>
        split at h
        · cases h
        · obtain ⟨⟨inner', grown'⟩, hgrown, h⟩ := exists_of_bind_eq_ok h
          cases h
          cases hmembers.of_get? hget with
          | table hkeys hinner =>
            have hdistinct := Change.Keeps.apply ih hgrown ⟨hkeys, hinner⟩
            exact hmembers.set (.table hdistinct.1 hdistinct.2)
      · cases h
      · next last before hget =>
        -- only the last table of an array changes
        obtain ⟨⟨inner, last'⟩, hlast, h⟩ := exists_of_bind_eq_ok h
        cases h
        cases hmembers.of_get? hget with
        | tables hkeys hinner =>
          obtain ⟨hkey, hkeys⟩ := List.forall_mem_cons.1 hkeys
          obtain ⟨hin, hinner⟩ := List.forall_mem_cons.1 hinner
          have hdistinct := Change.Keeps.apply ih hlast ⟨hkey, hin⟩
          exact hmembers.set (.tables (List.forall_mem_cons.2 ⟨hdistinct.1, hkeys⟩)
            (List.forall_mem_cons.2 ⟨hdistinct.2, hinner⟩))

theorem keeps_define {value : Value} (hvalue : value.IsOrdered) (dotted : Bool) (key : String) :
    (define dotted key value).Keeps := by
  intro origin origin' members members' h hmembers
  unfold define at h
  split at h
  · cases h
  · split at h
    · cases h
    · cases h
      exact hmembers.set (.value hvalue)

theorem keeps_definePair {value : Value} (hvalue : value.IsOrdered) (path : List String) :
    (definePair path value).Keeps := by
  unfold definePair
  split
  · intro origin origin' members members' h
    cases h
  · exact Change.Keeps.changeAt (keeps_define hvalue _ _) true _

theorem keeps_openTable (path : List String) : (openTable path).Keeps := by
  unfold openTable
  split
  · intro origin origin' members members' h
    cases h
  · refine Change.Keeps.changeAt ?_ false _
    intro origin origin' members members' h hmembers
    dsimp only at h
    split at h
    · cases h
      exact hmembers.set (.table isDistinct_nil.1 isDistinct_nil.2)
    · next hget =>
      cases h
      cases hmembers.of_get? hget with
      | table hkeys hinner => exact hmembers.set (.table hkeys hinner)
    · cases h

theorem keeps_appendTable {table : Growing} (htable : table.IsDistinct) (path : List String) :
    (appendTable path table).Keeps := by
  unfold appendTable
  split
  · intro origin origin' members members' h
    cases h
  · refine Change.Keeps.changeAt ?_ false _
    intro origin origin' members members' h hmembers
    dsimp only at h
    split at h
    · cases h
      exact hmembers.set (.tables (by simpa using htable.1) (by simpa using htable.2))
    · next hget =>
      cases h
      cases hmembers.of_get? hget with
      | tables hkeys hinner =>
        exact hmembers.set (.tables (List.forall_mem_cons.2 ⟨htable.1, hkeys⟩)
          (List.forall_mem_cons.2 ⟨htable.2, hinner⟩))
    · cases h

end Growing

/-! ## Written values -/

theorem isOrdered_of_named? {text : List Char} {value : Value} (h : named? text = some value) :
    value.IsOrdered := by
  -- what is found in the list of names is one of its eight values
  obtain ⟨before, after, hentries, -⟩ := List.lookup_eq_some_iff.1 h
  have hmem : (String.ofList text, value) ∈ before ++ (String.ofList text, value) :: after :=
    List.mem_append_right before List.mem_cons_self
  rw [← hentries] at hmem
  simp only [List.mem_cons, Prod.mk.injEq, List.not_mem_nil, or_false] at hmem
  rcases hmem with ⟨-, rfl⟩ | ⟨-, rfl⟩ | ⟨-, rfl⟩ | ⟨-, rfl⟩ | ⟨-, rfl⟩ | ⟨-, rfl⟩ | ⟨-, rfl⟩ |
    ⟨-, rfl⟩
  · exact .boolean true
  · exact .boolean false
  all_goals exact .float _

theorem isOrdered_of_basedValue {base : Nat} {digits : List Char} {value : Value}
    (h : basedValue base digits = .ok value) : value.IsOrdered := by
  unfold basedValue at h
  split at h
  · cases h
    exact .integer _
  · cases h

theorem isOrdered_of_integerValue {text : List Char} {value : Value}
    (h : integerValue text = .ok value) : value.IsOrdered := by
  unfold integerValue at h
  split at h
  · cases h
  · split at h
    · cases h
      exact .integer _
    · cases h

theorem isOrdered_of_floatValue {text : List Char} {value : Value}
    (h : floatValue text = .ok value) : value.IsOrdered := by
  unfold floatValue at h
  split at h
  · cases h
    exact .float _
  · cases h

theorem isOrdered_of_plainValue {text : List Char} {value : Value}
    (h : plainValue text = .ok value) : value.IsOrdered := by
  unfold plainValue at h
  dsimp only at h
  split at h
  · split at h
    · cases h
      exact .moment _
    · cases h
  · split at h
    · cases h
    · split at h
      · exact isOrdered_of_floatValue h
      · split at h
        · exact isOrdered_of_integerValue h
        · cases h

theorem isOrdered_of_wordValue {text : List Char} {value : Value}
    (h : wordValue text = .ok value) : value.IsOrdered := by
  unfold wordValue at h
  split at h
  · next hnamed =>
    cases h
    exact isOrdered_of_named? hnamed
  · split at h
    · exact isOrdered_of_basedValue h
    · exact isOrdered_of_plainValue h
  · exact isOrdered_of_plainValue h

theorem isOrdered_of_scalarValue {raw : Raw} {value : Value} (h : scalarValue raw = .ok value) :
    value.IsOrdered := by
  cases raw with
  | quoted quotation body =>
      obtain ⟨text, -, h⟩ := exists_of_bind_eq_ok h
      cases h
      exact .string _
  | unclosed => cases h
  | word text => exact isOrdered_of_wordValue h

mutual

theorem RawValue.isOrdered_of_value : ∀ {raw : RawValue} {value : Value},
    raw.value = .ok value → value.IsOrdered
  | .scalar raw, value, h => by
      rw [RawValue.value] at h
      exact isOrdered_of_scalarValue h
  | .array items, value, h => by
      rw [RawValue.value] at h
      obtain ⟨values, hvalues, h⟩ := exists_of_bind_eq_ok h
      cases h
      exact .array (isOrdered_of_values hvalues)
  | .inline members, value, h => by
      rw [RawValue.value] at h
      obtain ⟨⟨origin, grown⟩, hgrown, h⟩ := exists_of_bind_eq_ok h
      cases h
      have hordered := ((keeps_grow members).apply hgrown Growing.isDistinct_nil).finish
      exact .table hordered.1 hordered.2

theorem RawValue.isOrdered_of_values : ∀ {items : List RawValue} {values : List Value},
    RawValue.values items = .ok values → ∀ value ∈ values, value.IsOrdered
  | [], values, h => by
      cases h
      exact List.forall_mem_nil _
  | item :: items, values, h => by
      rw [RawValue.values] at h
      obtain ⟨value, hvalue, h⟩ := exists_of_bind_eq_ok h
      obtain ⟨others, hothers, h⟩ := exists_of_bind_eq_ok h
      cases h
      exact List.forall_mem_cons.2 ⟨isOrdered_of_value hvalue, isOrdered_of_values hothers⟩

theorem RawValue.keeps_grow : ∀ raw : List (RawKey × RawValue),
    Growing.Change.Keeps (RawValue.grow raw)
  | [] => by
      intro origin origin' members members' h hmembers
      cases h
      exact hmembers
  | (key, raw) :: others => by
      intro origin origin' members members' h hmembers
      rw [RawValue.grow] at h
      obtain ⟨path, -, h⟩ := exists_of_bind_eq_ok h
      obtain ⟨value, hvalue, h⟩ := exists_of_bind_eq_ok h
      obtain ⟨⟨inner, grown⟩, hgrown, h⟩ := exists_of_bind_eq_ok h
      have hpair := Growing.keeps_definePair (isOrdered_of_value hvalue) path
      exact (keeps_grow others).apply h (hpair.apply hgrown hmembers)

end

/-! ## Documents -/

namespace Draft

/-- Whether the growing tables of a draft have no key twice. -/
def IsDistinct (draft : Draft) : Prop :=
  draft.members.IsDistinct ∧ ∀ table ∈ draft.appended, Growing.IsDistinct table

theorem isDistinct_empty : empty.IsDistinct :=
  ⟨Growing.isDistinct_nil, fun table h => by cases h⟩

variable {draft draft' : Draft}

theorem IsDistinct.define (h : draft.IsDistinct) {key : List String} {value : Value}
    (hvalue : value.IsOrdered) (hdefine : draft.define key value = .ok draft') :
    draft'.IsDistinct := by
  have hpair := Growing.keeps_definePair hvalue key
  unfold Draft.define at hdefine
  dsimp only at hdefine
  -- a pair goes to the table that is to be appended, or else down the path of the last header
  split at hdefine
  · next table happended =>
    obtain ⟨⟨origin, grown⟩, hgrown, hdefine⟩ := exists_of_bind_eq_ok hdefine
    cases hdefine
    refine ⟨h.1, fun table' htable' => ?_⟩
    cases htable'
    exact hpair.apply hgrown (h.2 table happended)
  · next happended =>
    obtain ⟨⟨origin, grown⟩, hgrown, hdefine⟩ := exists_of_bind_eq_ok hdefine
    cases hdefine
    exact ⟨(hpair.changeAt false draft.path).apply hgrown h.1, h.2⟩

theorem IsDistinct.settled (h : draft.IsDistinct) (hsettled : draft.settled = .ok draft') :
    draft'.IsDistinct := by
  unfold Draft.settled at hsettled
  split at hsettled
  · next table happended =>
    obtain ⟨⟨origin, grown⟩, hgrown, hsettled⟩ := exists_of_bind_eq_ok hsettled
    cases hsettled
    have htable := h.2 table happended
    exact ⟨(Growing.keeps_appendTable htable draft.path).apply hgrown h.1, fun _ h => by cases h⟩
  · cases hsettled
    exact h

/-- No statement puts a key into a table twice. -/
theorem IsDistinct.carryOut (statement : Statement) (h : draft.IsDistinct)
    (hstep : draft.carryOut statement = .ok draft') : draft'.IsDistinct := by
  cases statement with
  | pair key raw =>
      obtain ⟨path, -, hstep⟩ := exists_of_bind_eq_ok hstep
      obtain ⟨value, hvalue, hstep⟩ := exists_of_bind_eq_ok hstep
      exact h.define (RawValue.isOrdered_of_value hvalue) hstep
  | table key =>
      obtain ⟨settled, hsettled, hstep⟩ := exists_of_bind_eq_ok hstep
      obtain ⟨path, -, hstep⟩ := exists_of_bind_eq_ok hstep
      obtain ⟨⟨origin, grown⟩, hgrown, hstep⟩ := exists_of_bind_eq_ok hstep
      cases hstep
      have hkept := (Growing.keeps_openTable path).apply hgrown (h.settled hsettled).1
      exact ⟨hkept, fun _ h => by cases h⟩
  | tableOfArray key =>
      obtain ⟨settled, hsettled, hstep⟩ := exists_of_bind_eq_ok hstep
      obtain ⟨path, -, hstep⟩ := exists_of_bind_eq_ok hstep
      cases hstep
      refine ⟨(h.settled hsettled).1, fun table htable => ?_⟩
      cases htable
      exact Growing.isDistinct_nil

end Draft

/-- **Every table of a document has its keys in order, and none of them twice.** -/
theorem isOrdered_of_parse {text : String} {members : Members} (h : parse text = .ok members) :
    IsOrdered members := by
  unfold parse at h
  split at h
  · cases h
  · obtain ⟨draft, hdraft, h⟩ := exists_of_bind_eq_ok h
    obtain ⟨settled, hsettled, h⟩ := exists_of_bind_eq_ok h
    cases h
    have hkept : draft.IsDistinct :=
      foldlM_eq_ok_induction (fun _ statement _ hstate hstep => hstate.carryOut statement hstep)
        Draft.isDistinct_empty hdraft
    exact (hkept.settled hsettled).1.finish

end Excision.Toml

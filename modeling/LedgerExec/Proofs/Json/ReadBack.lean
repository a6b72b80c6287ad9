import LedgerExec.Json.Codec
import LedgerExec.Proofs.Json.Scanning
import LedgerExec.Proofs.State.Reading
set_option autoImplicit false

/-!
# Values read back from their text

`Json.ReadsBack x` says that the tree of the value `x` is scanned as itself and read as `x`,
from which the value is read back from its text in lines.  A record is read back if each of
its fields finds its value under its own name (`Record.Reads`), which the names of the
members settle as long as none repeats.  A map is read back if its keys and its values are:
its entries are put back one by one.
-/

namespace LedgerExec.Json

variable {α β : Type}

/-- The text of a value is scanned as the tree of the value, and this is read as the value. -/
structure ReadsBack [Codec α] (x : α) : Prop where
  scans : Scans (toJson x)
  reads : ofJson (toJson x) = .ok x

theorem ReadsBack.read_writePretty [Codec α] {x : α} (h : ReadsBack x) :
    Json.read (writePretty x) = .ok x := by
  rw [Json.read, writePretty, h.scans.scan_pretty]
  simp only [h.reads]
  rfl

/-! ## Basic forms -/

theorem readsBack_unsigned {width : Nat} (x : Unsigned width) : ReadsBack x where
  scans := scans_nat x.toNat
  reads := by
    have hread : (natural? (Nat.toDigits 10 x.toNat)).bind (Unsigned.ofNat? width) = some x := by
      rw [natural?_toDigits, Option.bind_some, Unsigned.ofNat?_toNat]
    simp only [toJson, ofJson, nat, hread]

theorem readsBack_bool (b : Bool) : ReadsBack b where
  scans := scans_bool b
  reads := rfl

theorem readsBack_string (s : String) : ReadsBack s where
  scans := scans_string s
  reads := rfl

theorem string_ne_null (s : String) : string s ≠ .null := by simp [string]

theorem array_ne_null (items : List Json) : (.array items : Json) ≠ .null := by simp

/-- Any tree but null is read as a value that is there. -/
theorem ofJson_some [Codec α] {tree : Json} {x : α} (hnull : tree ≠ .null)
    (hread : ofJson tree = .ok x) : (ofJson tree : Except Fault (Option α)) = .ok (some x) := by
  have hmap : (ofJson tree : Except Fault (Option α)) = (ofJson tree : Except Fault α).map some := by
    cases tree with
    | null => exact absurd rfl hnull
    | _ => rfl
  rw [hmap, hread]
  rfl

/-- A value that may be missing, if what is there is not written like what is missing. -/
theorem readsBack_option [Codec α] {x? : Option α}
    (hvalue : ∀ x, x? = some x → ReadsBack x ∧ toJson x ≠ .null) : ReadsBack x? := by
  cases x? with
  | none =>
      exact
        { scans := scans_null
          reads := rfl }
  | some x =>
      obtain ⟨hx, hnull⟩ := hvalue x rfl
      exact
        { scans := hx.scans
          reads := ofJson_some hnull hx.reads }

theorem readsBack_option_string (s? : Option String) : ReadsBack s? :=
  readsBack_option fun s _ => ⟨readsBack_string s, string_ne_null s⟩

theorem readsBack_list [Codec α] {xs : List α} (hitems : ∀ x ∈ xs, ReadsBack x) :
    ReadsBack xs where
  scans := scans_array fun item hitem => by
    obtain ⟨x, hx, rfl⟩ := List.mem_map.mp hitem
    exact (hitems x hx).scans
  reads := by
    change (xs.map toJson).mapM (Codec.ofJson (α := α)) = .ok xs
    induction xs with
    | nil => rfl
    | cons x xs ih =>
        have hx := (hitems x List.mem_cons_self).reads
        have hxs := ih fun y hy => hitems y (List.mem_cons_of_mem x hy)
        rw [List.map_cons, List.mapM_cons, hx, hxs]
        rfl

/-! ## Maps -/

/-- The name of a key is read as the key. -/
def NameReadsBack {κ : Type} [Key κ] (key : κ) : Prop := Key.ofKey (Key.toKey key) = .ok key

section Keyed

variable {κ : Type} [Ord κ] [Std.TransOrd κ]

/-- A map is what its entries make of the empty one. -/
theorem foldl_insert_toList [Std.LawfulEqOrd κ] (m : Std.ExtTreeMap κ α) :
    m.toList.foldl (fun m entry => m.insert entry.1 entry.2) ∅ = m := by
  refine Std.ExtTreeMap.ext_getElem? fun k => ?_
  refine (read_foldl_entries m k (fun t : Std.ExtTreeMap κ α => t[k]?) (fun v _ => some v)
    (fun t v => ?_) (fun t k' v hk => ?_) ∅).trans ?_
  · simp
  · simp [Std.ExtTreeMap.getElem?_insert, hk]
  · cases m[k]? <;> simp

/-- The members of a map as its codec makes them. -/
def entryMembers [Key κ] [Codec α] (entries : List (κ × α)) : List (String × Json) :=
  entries.map fun (key, value) => (Key.toKey key, toJson value)

/-- Entries are put into a map one by one. -/
theorem ofJson_entryMembers [Key κ] [Codec α] {entries : List (κ × α)}
    (hkeys : ∀ entry ∈ entries, NameReadsBack entry.1)
    (hvalues : ∀ entry ∈ entries, ReadsBack entry.2) :
    (ofJson (record (entryMembers entries)) : Except Fault (Std.ExtTreeMap κ α)) =
      .ok (entries.foldl (fun m entry => m.insert entry.1 entry.2) ∅) := by
  rw [record_eq]
  change (named (entryMembers entries)).foldlM _ _ = _
  generalize (∅ : Std.ExtTreeMap κ α) = m
  induction entries generalizing m with
  | nil => rfl
  | cons entry entries ih =>
      have hkey : Key.ofKey (Key.toKey entry.1) = .ok entry.1 := hkeys entry List.mem_cons_self
      have hvalue := (hvalues entry List.mem_cons_self).reads
      have hrest := ih (fun e he => hkeys e (List.mem_cons_of_mem entry he))
        (fun e he => hvalues e (List.mem_cons_of_mem entry he)) (m.insert entry.1 entry.2)
      simp only [entryMembers, named, List.map_cons, List.foldlM_cons, hkey, hvalue]
      exact hrest

theorem readsBack_map [Std.LawfulEqOrd κ] [Key κ] [Codec α] {m : Std.ExtTreeMap κ α}
    (hkeys : ∀ entry ∈ m.toList, NameReadsBack entry.1)
    (hvalues : ∀ entry ∈ m.toList, ReadsBack entry.2) : ReadsBack m where
  scans := scans_record fun member hmember => by
    obtain ⟨entry, hentry, rfl⟩ := List.mem_map.mp hmember
    exact (hvalues entry hentry).scans
  reads := by
    change ofJson (record (entryMembers m.toList)) = _
    rw [ofJson_entryMembers hkeys hvalues, foldl_insert_toList]

end Keyed

/-! ## Records -/

theorem scans_member? [Codec α] {x? : Option α} (hx : ReadsBack x?) {name : String} :
    ∀ member ∈ member? name x?, Scans member.2 := by
  cases x? with
  | none => exact List.forall_mem_nil _
  | some x => exact List.forall_mem_cons.mpr ⟨hx.scans, List.forall_mem_nil _⟩

@[simp] theorem names_member? [Codec α] {name : String} {x? : Option α} :
    (member? name x?).map (·.1) = if x?.isSome then [name] else [] := by
  cases x? <;> rfl

namespace Record

variable {members : List (String × Json)} {name : String}

/-- A member is found under its name, if no name repeats. -/
theorem exists_find? {tree : Json} (hnames : (members.map (·.1)).Nodup)
    (hmember : (name, tree) ∈ members) (place : Nat) :
    ∃ entry, find? name (named members) place = some (entry, tree) := by
  induction members generalizing place with
  | nil => exact nomatch hmember
  | cons member others ih =>
      rw [List.map_cons, List.nodup_cons] at hnames
      rw [named, List.map_cons, find?]
      rcases List.mem_cons.mp hmember with rfl | hother
      · exact ⟨place, if_pos rfl⟩
      · have hdifferent : some member.1 ≠ some name := by
          intro hsame
          rw [Option.some.inj hsame] at hnames
          exact hnames.1 (List.mem_map_of_mem hother)
        rw [if_neg hdifferent]
        exact ih hnames.2 hother (place + 1)

theorem find?_eq_none (hname : name ∉ members.map (·.1)) (place : Nat) :
    find? name (named members) place = none := by
  induction members generalizing place with
  | nil => rfl
  | cons member others ih =>
      rw [List.map_cons, List.mem_cons, not_or] at hname
      rw [named, List.map_cons, find?, if_neg fun hsame => hname.1 (Option.some.inj hsame).symm]
      exact ih hname.2 (place + 1)

/-- Members of known names that do not repeat pass the check. -/
theorem checkMembers_named {names : List String} (hnames : (members.map (·.1)).Nodup)
    (hknown : ∀ member ∈ members, member.1 ∈ names) {seen : List String}
    (hfresh : ∀ member ∈ members, member.1 ∉ seen) (place : Nat) :
    checkMembers names seen place (named members) = .ok () := by
  induction members generalizing seen place with
  | nil => rfl
  | cons member others ih =>
      rw [List.map_cons, List.nodup_cons] at hnames
      rw [named, List.map_cons, checkMembers]
      simp only [if_pos (hknown member List.mem_cons_self),
        if_neg (hfresh member List.mem_cons_self)]
      refine ih hnames.2 (fun other hother => hknown other (List.mem_cons_of_mem member hother))
        (fun other hother => ?_) (place + 1)
      rw [List.mem_cons, not_or]
      refine ⟨fun hsame => hnames.1 ?_, hfresh other (List.mem_cons_of_mem member hother)⟩
      exact hsame ▸ List.mem_map_of_mem hother

/-- The fields get a value from the members of an object whose names do not repeat. -/
def Reads (r : Record α) (members : List (String × Json)) (x : α) : Prop :=
  (members.map (·.1)).Nodup → ∀ place, r.read (.members (named members)) place = .ok x

theorem Reads.map {r : Record α} {x : α} (h : r.Reads members x) (f : α → β) :
    (f <$> r).Reads members (f x) := by
  intro hnames place
  change (r.read (.members (named members)) place).map f = _
  rw [h hnames place]
  rfl

theorem Reads.seq {r : Record (α → β)} {s : Record α} {f : α → β} {x : α}
    (hr : r.Reads members f) (hs : s.Reads members x) : (r <*> s).Reads members (f x) := by
  intro hnames place
  change Verdict.both (r.read (.members (named members)) place)
    (s.read (.members (named members)) (place + r.names.length)) = _
  rw [hr hnames, hs hnames]
  rfl

/-- A field whose member is there. -/
theorem reads_fieldWith {decode : Json → Except Fault α} {absent cut : Option α} {tree : Json}
    {x : α} (hmember : (name, tree) ∈ members) (hread : decode tree = .ok x) :
    (fieldWith name decode absent cut).Reads members x := by
  intro hnames place
  obtain ⟨entry, hfound⟩ := exists_find? hnames hmember 0
  simp only [fieldWith, hfound, hread]
  rfl

theorem reads_field [Codec α] {x : α} (hmember : (name, toJson x) ∈ members) (hx : ReadsBack x) :
    (field name : Record α).Reads members x :=
  reads_fieldWith hmember hx.reads

theorem reads_fieldOr [Codec α] {x : α} (other : α) (hmember : (name, toJson x) ∈ members)
    (hx : ReadsBack x) : (fieldOr name other).Reads members x :=
  reads_fieldWith hmember hx.reads

theorem reads_fieldOrNull [Codec α] {x? : Option α} (hmember : (name, toJson x?) ∈ members)
    (hx : ReadsBack x?) : (fieldOrNull name : Record (Option α)).Reads members x? :=
  reads_fieldWith hmember hx.reads

/-- A field whose member is missing has the value for that. -/
theorem reads_fieldOr_of_missing [Codec α] (x : α) (hname : name ∉ members.map (·.1)) :
    (fieldOr name x).Reads members x := by
  intro _ place
  simp only [fieldOr, fieldWith, find?_eq_none hname]

/-- A member that is left out when its value is missing. -/
theorem reads_member? [Codec α] {x? : Option α} (hx : ReadsBack x?) {front back : List (String × Json)}
    (hmembers : members = front ++ (member? name x? ++ back))
    (hfront : name ∉ front.map (·.1)) (hback : name ∉ back.map (·.1)) :
    (fieldOr name none : Record (Option α)).Reads members x? := by
  cases x? with
  | none =>
      refine reads_fieldOr_of_missing none ?_
      rw [hmembers, member?, List.nil_append, List.map_append, List.mem_append, not_or]
      exact ⟨hfront, hback⟩
  | some x =>
      refine reads_fieldOr none ?_ hx
      rw [hmembers]
      exact List.mem_append_right _ List.mem_cons_self


/-- A record is read from members in the order of its fields, of which some may be missing. -/
theorem Reads.ofJson_record {r : Record α} {x : α} (h : r.Reads members x)
    (hfields : r.names.Nodup) (hmembers : (members.map (·.1)).Sublist r.names) :
    r.ofJson (record members) = .ok x := by
  have hnames := hfields.sublist hmembers
  have hchecked := checkMembers_named hnames
    (fun _ hmember => hmembers.subset (List.mem_map_of_mem hmember)) (fun _ _ => List.not_mem_nil) 0
  rw [record_eq, Record.ofJson, ofEntries]
  simp only [hchecked, h hnames 0]
  rfl

end Record

end LedgerExec.Json

import LedgerExec.Trace
import LedgerExec.Proofs.Json.Hexadecimal
set_option autoImplicit false

/-!
# Traces read back

A trace carries its kind among its members and is read in two passes, of which the first
takes only trees that are strict and of bounded depth.  The tree of a program's trace is both,
as its numbers have 64 bits (`Json.isFinite_toDigits`) and it has three levels.  The second
pass reads no amount of money, and the summary of a transfer always holds one.  So the trace
of a program is read back, but for the two settings that are not written, and the summary of a
transfer never is (`Trace.ofTree_toJson`).
-/

namespace LedgerExec

namespace Json

/-! ## Numbers in the range of double precision -/

/-- As long as the digits spell a number of 64 bits all of them are taken. -/
theorem leading64_eq {digits : List Char} {value : Nat}
    (hsmall : digits.foldl (fun value digit => 10 * value + digitValue digit) value < 1 <<< 64) :
    leading64 value digits =
      (digits.foldl (fun value digit => 10 * value + digitValue digit) value, 0) := by
  induction digits generalizing value with
  | nil => rfl
  | cons digit digits ih =>
      have hgrows : ∀ (digits : List Char) (value : Nat),
          value ≤ digits.foldl (fun value digit => 10 * value + digitValue digit) value := by
        intro digits
        induction digits with
        | nil => exact fun value => Nat.le_refl value
        | cons digit digits ih =>
            intro value
            have hnext := ih (10 * value + digitValue digit)
            rw [List.foldl_cons]
            omega
      rw [List.foldl_cons] at hsmall ⊢
      have hnext := hgrows digits (10 * value + digitValue digit)
      rw [leading64]
      simp only [if_pos (Nat.lt_of_le_of_lt hnext hsmall)]
      exact ih hsmall

/-- Rounding adds at most the unit of the last place. -/
theorem roundTo53_le {n : Nat} (hn : n < 1 <<< 64) : roundTo53 n ≤ n + 1 <<< 11 := by
  have hlog : n.log2 + 1 - 53 ≤ 11 := by
    have hlog : n.log2 < 64 := by
      by_cases hzero : n = 0
      · rw [hzero]
        decide
      · exact (Nat.log2_lt hzero).mpr (by rwa [Nat.one_shiftLeft] at hn)
    omega
  have hunit : 1 <<< (n.log2 + 1 - 53) ≤ 1 <<< 11 := by
    rw [Nat.one_shiftLeft, Nat.one_shiftLeft]
    exact Nat.pow_le_pow_right (by decide) hlog
  have hfloor := Nat.div_mul_le_self n (1 <<< (n.log2 + 1 - 53))
  simp only [roundTo53]
  split
  · rw [Nat.succ_mul]
    omega
  · omega

/-- A number of 64 bits is in the range of double precision. -/
theorem isFinite_toDigits {n : Nat} (hn : n < 1 <<< 64) : isFinite (Nat.toDigits 10 n) = true := by
  have hdigits := all_isDigit_toDigits n
  have hsign : (Nat.toDigits 10 n).dropWhile (· == '-') = Nat.toDigits 10 n := by
    cases hfront : Nat.toDigits 10 n with
    | nil => rfl
    | cons c digits =>
        have hc := hdigits c (by rw [hfront]; exact List.mem_cons_self)
        refine List.dropWhile_cons_of_neg ?_
        rw [beq_iff_eq]
        rintro rfl
        exact absurd hc (by decide)
  have hwhole : (Nat.toDigits 10 n).takeWhile isDigit = Nat.toDigits 10 n := by
    simpa using takeWhile_toDigits n .nil
  have hrest : (Nat.toDigits 10 n).dropWhile isDigit = [] := by
    simpa using dropWhile_toDigits n .nil
  have hlead : leading64 0 (Nat.toDigits 10 n) = (n, 0) := by
    have hvalue := digitsValue_toDigits n
    rw [digitsValue] at hvalue
    rw [leading64_eq (by rwa [hvalue]), hvalue]
  have hproduct : roundTo53 n * roundTo53 (Nat.pow 10 0) < (1 <<< 1024) - (1 <<< 970) := by
    have hround := roundTo53_le hn
    have hone : roundTo53 (Nat.pow 10 0) = 1 := by decide
    rw [hone, Nat.mul_one]
    refine Nat.lt_of_le_of_lt hround (Nat.lt_of_lt_of_le (Nat.add_lt_add_right hn _) ?_)
    decide +kernel
  have hpower : ((0 : Nat) : Int) + 0 - (([] : List Char).length - 0 : Nat) = 0 := rfl
  simp only [isFinite, hsign, hwhole, hrest, hlead, leading64, hpower]
  split
  · rfl
  · rw [if_neg (by decide)]
    exact decide_eq_true hproduct

/-! ## Trees of bounded depth -/

/-- The tree of a strict text with at most `levels` arrays and objects around a value. -/
structure Plain (levels : Nat) (t : Json) : Prop where
  strict : t.isStrict = true
  depth_le : t.depth ≤ levels

variable {levels : Nat}

theorem Plain.mono {t : Json} (h : Plain levels t) {more : Nat} (hmore : levels ≤ more) :
    Plain more t :=
  ⟨h.strict, Nat.le_trans h.depth_le hmore⟩

theorem plain_null : Plain levels .null := ⟨rfl, Nat.zero_le levels⟩

theorem plain_bool (b : Bool) : Plain levels (.bool b) := ⟨rfl, Nat.zero_le levels⟩

theorem plain_string (s : String) : Plain levels (string s) := ⟨rfl, Nat.zero_le levels⟩

theorem plain_unsigned {width : Nat} (hwidth : width ≤ 64) (x : Unsigned width) :
    Plain levels (toJson x) := by
  have hx : x.toNat < 1 <<< 64 := by
    refine Nat.lt_of_lt_of_le x.isLt ?_
    rw [Nat.one_shiftLeft, Nat.one_shiftLeft]
    exact Nat.pow_le_pow_right (by decide) hwidth
  exact ⟨isFinite_toDigits hx, Nat.zero_le levels⟩

theorem plain_array {items : List Json} (hitems : ∀ item ∈ items, Plain levels item) :
    Plain (levels + 1) (.array items) := by
  induction items with
  | nil => exact ⟨rfl, by simp [depth, depthItems]⟩
  | cons item items ih =>
      obtain ⟨hitem, hothers⟩ := List.forall_mem_cons.mp hitems
      have hrest := ih hothers
      constructor
      · have hstrict := hrest.strict
        have hfirst := hitem.strict
        simp only [isStrict, every, everyItem, Bool.true_and, Bool.and_eq_true] at hstrict hfirst ⊢
        exact ⟨hfirst, hstrict⟩
      · have hdepth := hrest.depth_le
        have hfirst := hitem.depth_le
        simp only [depth, depthItems] at hdepth ⊢
        omega

theorem plain_record {members : List (String × Json)}
    (hmembers : ∀ member ∈ members, Plain levels member.2) : Plain (levels + 1) (record members) := by
  induction members with
  | nil => exact ⟨rfl, by simp [record, depth, depthMembers]⟩
  | cons member members ih =>
      obtain ⟨hmember, hothers⟩ := List.forall_mem_cons.mp hmembers
      have hrest := ih hothers
      constructor
      · have hstrict := hrest.strict
        have hfirst := hmember.strict
        simp only [isStrict, record, every, List.map_cons, everyMember, List.all_cons,
          Option.isSome_some, Bool.true_and, Bool.and_eq_true] at hstrict hfirst ⊢
        exact ⟨hstrict.1, hfirst, hstrict.2⟩
      · have hdepth := hrest.depth_le
        have hfirst := hmember.depth_le
        simp only [record, depth, List.map_cons, depthMembers] at hdepth ⊢
        omega

/-! ## Records among other members -/

namespace Record

variable {α : Type} {r : Record α}

/-- A member of another name is skipped. -/
theorem checkMembers_skip {names seen : List String} {name : String} {value : Json}
    (hname : name ∉ names) (hwhole : value.isWhole = true) (place : Nat)
    (rest : List (Option String × Json)) :
    checkMembers names seen place ((some name, value) :: rest) =
      checkMembers names seen (place + 1) rest := by
  simp only [checkMembers, if_neg hname, hwhole, if_true]

theorem ofEntries_of_read {members : List (Option String × Json)} {x : α}
    (hcheck : checkMembers r.names [] 0 members = .ok ())
    (hread : r.read (.members members) 0 = .ok x) : r.ofEntries (.members members) = .ok x := by
  rw [ofEntries]
  simp only [hcheck, hread]
  rfl

theorem ofEntries_of_fault {members : List (Option String × Json)} {entry : Nat} {fault : Fault}
    (hcheck : checkMembers r.names [] 0 members = .ok ())
    (hread : r.read (.members members) 0 = .error (entry, fault)) :
    r.ofEntries (.members members) = .error fault := by
  rw [ofEntries]
  simp only [hcheck, hread]
  rfl

variable {β : Type} {entries : Entries} {place : Nat}

theorem read_map (f : α → β) (place : Nat) :
    (f <$> r).read entries place = (r.read entries place).map f := rfl

/-- A record with a faulty last field is faulty. -/
theorem read_seq_of_fault {f : Record (α → β)} {g : α → β} {fault : Nat × Fault}
    (hfirst : f.read entries place = .ok g)
    (hlast : r.read entries (place + f.names.length) = .error fault) :
    (f <*> r).read entries place = .error fault := by
  change Verdict.both (f.read entries place) (r.read entries (place + f.names.length)) = _
  rw [hfirst, hlast]
  rfl

/-- Of two faults the one that stands first is reported. -/
theorem read_seq_of_first {f : Record (α → β)} {fault : Nat × Fault}
    (hfirst : f.read entries place = .error fault)
    (hlater : ∀ later, r.read entries (place + f.names.length) = .error later →
      fault.1 ≤ later.1) : (f <*> r).read entries place = .error fault := by
  change Verdict.both (f.read entries place) (r.read entries (place + f.names.length)) = _
  rw [hfirst]
  cases hlast : r.read entries (place + f.names.length) with
  | ok _ => rfl
  | error later => exact if_neg (Nat.not_lt.mpr (hlater later hlast))

theorem place_of_mapError {read : Except Fault α} {entry : Nat} {fault : Nat × Fault}
    (hread : read.mapError (entry, ·) = .error fault) : fault.1 = entry := by
  cases read with
  | ok _ => cases hread
  | error _ => rw [← Except.error.inj hread]

/-- What is wrong with a member is reported at its place. -/
theorem read_fieldWith {name : String} {decode : Json → Except Fault α} {absent cut : Option α}
    {members : List (Option String × Json)} {entry : Nat} {tree : Json}
    (hfound : find? name members 0 = some (entry, tree)) (place : Nat) :
    (fieldWith name decode absent cut).read (.members members) place =
      (decode tree).mapError (entry, ·) := by
  simp only [fieldWith, hfound]

end Record

end Json

open Json

/-! ## Program traces -/

theorem TraceStep.readsBack (s : TraceStep) : ReadsBack s := by
  have hpc := readsBack_unsigned s.pc
  have hop := readsBack_string s.op
  have hgas := readsBack_unsigned s.gas
  have hcost := readsBack_unsigned s.gasCost
  have hdepth := readsBack_unsigned s.depth
  refine ⟨scans_record ?_, Record.Reads.ofJson_record (r := fields) ?_ (by decide) (.refl _)⟩
  · simp only [List.forall_mem_cons]
    exact ⟨hpc.scans, hop.scans, hgas.scans, hcost.scans, hdepth.scans, List.forall_mem_nil _⟩
  · exact (((((Record.reads_field (by simp) hpc).map TraceStep.mk).seq
      (Record.reads_field (by simp) hop)).seq
      (Record.reads_field (by simp) hgas)).seq
      (Record.reads_field (by simp) hcost)).seq
      (Record.reads_field (by simp) hdepth)

theorem TraceStep.plain (s : TraceStep) : Plain 1 (toJson s) := by
  refine plain_record ?_
  simp only [List.forall_mem_cons]
  exact ⟨plain_unsigned (by decide) s.pc, plain_string s.op, plain_unsigned (by decide) s.gas,
    plain_unsigned (by decide) s.gasCost, plain_unsigned (by decide) s.depth, List.forall_mem_nil _⟩

namespace ProgramTrace

/-- The trace without the settings that say which steps are kept. -/
def shown (t : ProgramTrace) : ProgramTrace := { t with enabled := false, maxSteps := 0 }

variable (t : ProgramTrace)

theorem readsBack_steps : ReadsBack t.steps := readsBack_list fun s _ => s.readsBack

theorem scans_members : ∀ member ∈ t.members, Scans member.2 := by
  simp only [members, List.forall_mem_cons]
  exact ⟨(readsBack_address t.contract).scans, t.readsBack_steps.scans, scans_string _,
    (readsBack_option_string t.error).scans, scans_bool t.reverted, List.forall_mem_nil _⟩

theorem plain_members : ∀ member ∈ t.members, Plain 2 member.2 := by
  have hsteps : Plain 2 (toJson t.steps) := plain_array fun item hitem => by
    obtain ⟨s, -, rfl⟩ := List.mem_map.mp hitem
    exact s.plain
  have herror : Plain 2 (toJson t.error) := by
    cases t.error with
    | none => exact plain_null
    | some s => exact plain_string s
  simp only [members, List.forall_mem_cons]
  exact ⟨plain_string _, hsteps, plain_string _, herror, plain_bool t.reverted,
    List.forall_mem_nil _⟩

theorem readHex_encodeMarked (bytes : Bytes) :
    readHex (string (Hex.encodeMarked bytes)) = .ok bytes := by
  change (Hex.decodeMarked (Hex.encodeMarked bytes)).mapError Fault.hex = _
  rw [Hex.decodeMarked_encodeMarked]
  rfl

/-- The fields are found also where the kind of the trace stands among them. -/
theorem reads_fields (kind : Json) : fields.Reads ((Trace.tag, kind) :: t.members) t.shown := by
  have hresult := readHex_encodeMarked t.result
  exact (((((Record.reads_field (by simp [members]) (readsBack_address t.contract)).map _).seq
    (Record.reads_field (by simp [members]) t.readsBack_steps)).seq
    (Record.reads_fieldWith (by simp [members]) hresult)).seq
    (Record.reads_fieldOrNull (by simp [members]) (readsBack_option_string t.error))).seq
    (Record.reads_field (by simp [members]) (readsBack_bool t.reverted))

end ProgramTrace

/-! ## Summaries of transfers -/

theorem Movement.scans (m : Movement) : Scans (toJson m) := by
  have hreceiver := readsBack_option_address m.receiver
  refine scans_record ?_
  simp only [List.forall_mem_cons]
  exact ⟨(readsBack_address m.sender).scans, hreceiver.scans, (readsBack_unsigned m.gas).scans,
    (readsBack_unsigned m.value).scans, List.forall_mem_nil _⟩

mutual
theorem Subtrace.scans_toTree : ∀ s : Subtrace, Scans s.toTree
  | ⟨callType, movement, output, subtraces⟩ => by
    rw [toTree]
    refine scans_record ?_
    simp only [List.forall_mem_cons]
    exact ⟨scans_string callType, movement.scans, scans_string _,
      scans_array (scans_toTrees subtraces), List.forall_mem_nil _⟩

theorem Subtrace.scans_toTrees : ∀ subtraces : List Subtrace, ∀ item ∈ toTrees subtraces, Scans item
  | [] => fun _ hitem => nomatch hitem
  | s :: rest => by
    rw [toTrees, List.forall_mem_cons]
    exact ⟨s.scans_toTree, scans_toTrees rest⟩
end

/-- A movement is not read where amounts are not. -/
theorem Movement.ofJson_noAmount (m : Movement) :
    (fieldsWith Trace.noAmount).ofJson (toJson m) = .error .malformed := by
  have hreceiver := readsBack_option_address m.receiver
  let members : List (String × Json) :=
    [("sender", toJson m.sender), ("receiver", toJson m.receiver), ("gas", toJson m.gas),
     ("value", toJson m.value)]
  have hothers : (Movement.mk <$> .field "sender" <*> .fieldOrNull "receiver" <*> .field "gas" :
      Record (Balance → Movement)).Reads members (Movement.mk m.sender m.receiver m.gas) :=
    (((Record.reads_field (by simp [members]) (readsBack_address m.sender)).map Movement.mk).seq
      (Record.reads_fieldOrNull (by simp [members]) hreceiver)).seq
      (Record.reads_field (by simp [members]) (readsBack_unsigned m.gas))
  have hnames : (members.map (·.1)).Nodup :=
    show ["sender", "receiver", "gas", "value"].Nodup by decide
  have hvalue : Record.find? "value" (named members) 0 = some (3, toJson m.value) := rfl
  have hread : (fieldsWith Trace.noAmount).read (.members (named members)) 0 =
      .error (3, .malformed) :=
    Record.read_seq_of_fault (hothers hnames 0) (Record.read_fieldWith hvalue 3)
  change (fieldsWith Trace.noAmount).ofEntries (.members (named members)) = .error .malformed
  exact Record.ofEntries_of_fault rfl hread

namespace TransferTrace

theorem scans_members (t : TransferTrace) : ∀ member ∈ t.members, Scans member.2 := by
  have hsubtraces : Scans (toJson t.subtraces) := scans_array fun item hitem => by
    obtain ⟨s, -, rfl⟩ := List.mem_map.mp hitem
    exact s.scans_toTree
  simp only [members, List.forall_mem_cons]
  exact ⟨t.movement.scans, hsubtraces, List.forall_mem_nil _⟩

/-- The amount in the summary is the first thing that is not read. -/
theorem read_fields (t : TransferTrace) (room : Nat) (kind : Json) :
    (fieldsWith Trace.noAmount room).read (.members (named ((Trace.tag, kind) :: t.members))) 0 =
      .error (1, .malformed) := by
  have hinvoke : Record.find? "invoke" (named ((Trace.tag, kind) :: t.members)) 0 =
      some (1, toJson t.movement) := rfl
  have hsubtraces : Record.find? "subtraces" (named ((Trace.tag, kind) :: t.members)) 0 =
      some (2, toJson t.subtraces) := rfl
  refine Record.read_seq_of_first ?_ fun later hlater => ?_
  · rw [Record.read_map, Record.read_fieldWith hinvoke, Movement.ofJson_noAmount]
    rfl
  · rw [Record.read_fieldWith hsubtraces] at hlater
    rw [Record.place_of_mapError hlater]
    decide

end TransferTrace

/-! ## Traces -/

namespace Trace

/-- Whether the trace is that of a program. -/
def isProgram : Trace → Bool
  | .program _ => true
  | .summarized _ => false

/-- The trace without the settings of a program's trace. -/
def shown : Trace → Trace
  | .program t => .program t.shown
  | .summarized t => .summarized t

theorem scans (t : Trace) : Scans (toJson t) := by
  cases t with
  | program t => exact scans_record (List.forall_mem_cons.mpr ⟨scans_string _, t.scans_members⟩)
  | summarized t => exact scans_record (List.forall_mem_cons.mpr ⟨scans_string _, t.scans_members⟩)

/-- A trace is read by the fields of its kind, which is the only member of its name. -/
theorem ofTree_record {around : Nat} {kind : String} {members : List (String × Json)}
    {fields : Record Trace} (hkind : fieldsOf? (string kind) = some fields)
    (hothers : tag ∉ members.map (·.1)) :
    ofTree around (record ((tag, string kind) :: members)) =
      if (record ((tag, string kind) :: members)).isStrict &&
          (record ((tag, string kind) :: members)).depth + around ≤ depthLimit then
        fields.ofEntries (.members (named ((tag, string kind) :: members)))
      else .error .malformed := by
  have hfilter : (named ((tag, string kind) :: members)).filter (·.1 = some tag) =
      [(some tag, string kind)] := by
    rw [named, List.map_cons, List.filter_cons_of_pos (by simp), List.filter_eq_nil_iff.mpr]
    intro member hmember
    obtain ⟨other, hother, rfl⟩ := List.mem_map.mp hmember
    simp only [decide_eq_true_eq, Option.some.injEq]
    exact fun hsame => hothers (hsame ▸ List.mem_map_of_mem hother)
  unfold ofTree
  simp only [record_eq, hfilter, hkind]
  rfl

theorem ofTree_program (t : ProgramTrace) {around : Nat} (haround : around + 3 ≤ depthLimit) :
    ofTree around (toJson (program t)) = .ok (program t.shown) := by
  let tree := record ((tag, string "program") :: t.members)
  have hplain : Plain 3 tree :=
    plain_record (List.forall_mem_cons.mpr ⟨plain_string _, t.plain_members⟩)
  have hlevels : tree.depth + around ≤ depthLimit := by
    have hdepth := hplain.depth_le
    omega
  have hnames : (((tag, string "program") :: t.members).map (·.1)).Nodup :=
    show ["kind", "contract_address", "steps", "result", "error", "revert"].Nodup by decide
  have hothers := (List.nodup_cons.mp hnames).1
  have hread := ((t.reads_fields (string "program")).map program) hnames 0
  refine (ofTree_record rfl hothers).trans ?_
  rw [if_pos (Bool.and_eq_true_iff.mpr ⟨hplain.strict, decide_eq_true hlevels⟩)]
  refine Record.ofEntries_of_read ?_ hread
  refine (Record.checkMembers_skip (by decide) rfl 0 _).trans ?_
  exact Record.checkMembers_named (List.nodup_cons.mp hnames).2
    (fun member hmember => List.mem_map_of_mem hmember) (fun _ _ => List.not_mem_nil) 1

theorem ofTree_summarized (t : TransferTrace) (around : Nat) :
    ofTree around (toJson (summarized t)) = .error .malformed := by
  have hothers : tag ∉ t.members.map (·.1) := show "kind" ∉ ["invoke", "subtraces"] by decide
  refine (ofTree_record rfl hothers).trans ?_
  split
  · have hread : (summarized <$> TransferTrace.fieldsWith noAmount depthLimit).read
        (.members (named ((tag, string "summarized") :: t.members))) 0 =
          .error (1, .malformed) := by
      rw [Record.read_map, t.read_fields]
      rfl
    exact Record.ofEntries_of_fault rfl hread
  · rfl

/-- Inside not too many arrays and objects the trace of a program is read, and no other is. -/
theorem ofTree_toJson (t : Trace) {around : Nat} (haround : around + 3 ≤ depthLimit) :
    ofTree around (toJson t) = if t.isProgram then .ok t.shown else .error .malformed := by
  cases t with
  | program t => exact ofTree_program t haround
  | summarized t => exact ofTree_summarized t around

end Trace

end LedgerExec

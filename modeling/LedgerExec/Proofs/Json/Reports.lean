import LedgerExec.Proofs.Block.Traces
import LedgerExec.Proofs.Json.Traces
set_option autoImplicit false

/-!
# Reports read back

The results of blocks and the final accounts of a scenario are read back from the text of its
report, and so is the report itself if every trace in it is that of a program.  With the summary
of a transfer in it the report is not read at all (`ScenarioReport.read_writePretty`).
-/

namespace LedgerExec

namespace Json

variable {α : Type}

/-! ## Bytes and sets -/

theorem readsBack_byte (x : UInt8) : ReadsBack x where
  scans := scans_nat x.toNat
  reads := by
    have hbyte : UInt8.ofNat x.toNat = x := UInt8.ofNat_toNat
    simp only [Codec.toJson, Codec.ofJson, nat, natural?_toDigits, if_pos x.toNat_lt, hbyte]

theorem readsBack_bytes (bytes : Bytes) : ReadsBack bytes :=
  readsBack_list fun byte _ => readsBack_byte byte

/-- A set is read back if its elements are. -/
theorem readsBack_set {κ : Type} [Ord κ] [Std.TransOrd κ] [Std.LawfulEqOrd κ] [DecidableEq κ]
    [Codec κ] {s : Std.ExtTreeSet κ} (helements : ∀ x ∈ s.toList, ReadsBack x) : ReadsBack s where
  scans := (readsBack_list helements).scans
  reads := by
    have hset : Std.ExtTreeSet.ofList s.toList compare = s := by
      refine Std.ExtTreeSet.ext_contains fun x => ?_
      rw [Std.ExtTreeSet.contains_ofList, Std.ExtTreeSet.contains_toList]
    have hread : (ofJson (toJson s) : Except Fault (Std.ExtTreeSet κ)) =
        (ofJson (toJson s.toList) >>= fun items => .ok (Std.ExtTreeSet.ofList items compare)) := rfl
    rw [hread, (readsBack_list helements).reads]
    exact congrArg Except.ok hset

end Json

open Json

/-! ## Accounts -/

namespace Account

/-- The members of an account. -/
def members (a : Account) : List (String × Json) :=
  [("nonce", toJson a.nonce), ("balance", toJson a.balance)] ++
    (member? "code" a.code ++ (member? "storage_root" a.storageRoot ++
      [("is_contract", toJson a.isContract)]))

theorem toJson_eq (a : Account) : toJson a = record a.members := by
  rw [members, ← List.append_assoc, ← List.append_assoc]
  rfl

theorem readsBack_json (a : Account) : ReadsBack a := by
  have hnonce := readsBack_unsigned a.nonce
  have hbalance := readsBack_unsigned a.balance
  have hcode : ReadsBack a.code :=
    readsBack_option fun bytes _ => ⟨readsBack_bytes bytes, array_ne_null _⟩
  have hroot : ReadsBack a.storageRoot :=
    readsBack_option fun root _ => ⟨readsBack_digest root, string_ne_null _⟩
  have hcontract := readsBack_bool a.isContract
  have hscans : ∀ member ∈ a.members, Scans member.2 := by
    simp only [members, List.forall_mem_append, List.forall_mem_cons]
    exact ⟨⟨hnonce.scans, hbalance.scans, List.forall_mem_nil _⟩, scans_member? hcode,
      scans_member? hroot, hcontract.scans, List.forall_mem_nil _⟩
  have hreads : fields.Reads a.members a :=
    (((((Record.reads_field (by simp) hnonce).map Account.mk).seq
      (Record.reads_field (by simp) hbalance)).seq
      (Record.reads_member? hcode rfl (by simp) (by simp))).seq
      (Record.reads_member? hroot (List.append_assoc _ _ _).symm (by simp) (by simp))).seq
      (Record.reads_fieldOr false (by simp) hcontract)
  have hnames : (a.members.map (·.1)).Sublist fields.names := by
    simp only [members, List.map_append, names_member?, List.map_cons, List.map_nil]
    cases a.code.isSome <;> cases a.storageRoot.isSome <;> decide
  have hread := hreads.ofJson_record (by decide) hnames
  rw [← toJson_eq] at hread
  exact ⟨toJson_eq a ▸ scans_record hscans, hread⟩

end Account

/-! ## Results of blocks -/

theorem Log.readsBack_json (l : Log) : ReadsBack l := by
  have haddress := readsBack_address l.address
  have htopics : ReadsBack l.topics :=
    readsBack_list fun topic _ => readsBack_octets (by decide) rfl topic
  have hdata := readsBack_bytes l.data
  have hrejected := readsBack_bool l.rejected
  refine ⟨scans_record ?_, Record.Reads.ofJson_record (r := fields) ?_ (by decide) (.refl _)⟩
  · simp only [List.forall_mem_cons]
    exact ⟨haddress.scans, htopics.scans, hdata.scans, hrejected.scans, List.forall_mem_nil _⟩
  · exact ((((Record.reads_field (by simp) haddress).map Log.mk).seq
      (Record.reads_field (by simp) htopics)).seq
      (Record.reads_field (by simp) hdata)).seq
      (Record.reads_fieldOr false (by simp) hrejected)

theorem Status.readsBack_json (s : Status) : ReadsBack s where
  scans := scans_string s.name
  reads := by cases s <;> rfl

theorem Receipt.readsBack_json (r : Receipt) : ReadsBack r := by
  have htransaction := readsBack_digest r.transaction
  have hcumulative := readsBack_unsigned r.cumulativeGas
  have hgas := readsBack_unsigned r.gasUsed
  have hrent := readsBack_unsigned r.rentGasUsed
  have hstatus := r.status.readsBack_json
  have hlogs : ReadsBack r.logs := readsBack_list fun l _ => l.readsBack_json
  refine ⟨scans_record ?_, Record.Reads.ofJson_record (r := fields) ?_ (by decide) (.refl _)⟩
  · simp only [List.forall_mem_cons]
    exact ⟨htransaction.scans, hcumulative.scans, hgas.scans, hrent.scans, hstatus.scans,
      hlogs.scans, List.forall_mem_nil _⟩
  · exact ((((((Record.reads_field (by simp) htransaction).map Receipt.mk).seq
      (Record.reads_field (by simp) hcumulative)).seq
      (Record.reads_field (by simp) hgas)).seq
      (Record.reads_field (by simp) hrent)).seq
      (Record.reads_field (by simp) hstatus)).seq
      (Record.reads_field (by simp) hlogs)

theorem RejectedTransaction.readsBack_json (r : RejectedTransaction) : ReadsBack r := by
  have htransaction := readsBack_digest r.transaction
  have hreason := readsBack_string r.reason
  refine ⟨scans_record ?_, Record.Reads.ofJson_record (r := fields) ?_ (by decide) (.refl _)⟩
  · simp only [List.forall_mem_cons]
    exact ⟨htransaction.scans, hreason.scans, List.forall_mem_nil _⟩
  · exact ((Record.reads_field (by simp) htransaction).map RejectedTransaction.mk).seq
      (Record.reads_field (by simp) hreason)

theorem BlockResult.readsBack_json (r : BlockResult) : ReadsBack r := by
  have hblock := readsBack_digest r.block
  have hreceipts : ReadsBack r.receipts := readsBack_list fun receipt _ => receipt.readsBack_json
  have hrejected : ReadsBack r.rejected := readsBack_list fun rejected _ => rejected.readsBack_json
  have hgas := readsBack_unsigned r.gasUsed
  have hfees := readsBack_unsigned r.paidFees
  have hdestroyed : ReadsBack r.destroyed := readsBack_set fun address _ => readsBack_address address
  have hroot := readsBack_digest r.receiptsRoot
  refine ⟨scans_record ?_, Record.Reads.ofJson_record (r := fields) ?_ (by decide) (.refl _)⟩
  · simp only [List.forall_mem_cons]
    exact ⟨hblock.scans, hreceipts.scans, hrejected.scans, hgas.scans, hfees.scans,
      hdestroyed.scans, hroot.scans, List.forall_mem_nil _⟩
  · exact (((((((Record.reads_field (by simp) hblock).map BlockResult.mk).seq
      (Record.reads_field (by simp) hreceipts)).seq
      (Record.reads_field (by simp) hrejected)).seq
      (Record.reads_field (by simp) hgas)).seq
      (Record.reads_field (by simp) hfees)).seq
      (Record.reads_field (by simp) hdestroyed)).seq
      (Record.reads_field (by simp) hroot)

/-! ## Reports -/

namespace ScenarioReport

/-- Entries are put into the map one by one until one holds the summary of a transfer. -/
theorem readTraces_entryMembers (entries : List (Digest × Trace)) :
    readTraces (record (entryMembers entries)) =
      if entries.all fun entry => entry.2.isProgram then
        .ok ((entries.map fun entry => (entry.1, entry.2.shown)).foldl
          (fun traces entry => traces.insert entry.1 entry.2) ∅)
      else .error .malformed := by
  rw [record_eq]
  change (named (entryMembers entries)).foldlM _ _ = _
  generalize (∅ : Std.ExtTreeMap Digest Trace) = traces
  induction entries generalizing traces with
  | nil => rfl
  | cons entry entries ih =>
      have hkey : Key.ofKey (Key.toKey entry.1) = .ok entry.1 :=
        nameReadsBack_octets (by decide) entry.1
      have htrace := entry.2.ofTree_toJson (show 2 + 3 ≤ depthLimit by decide)
      simp only [entryMembers, named, List.map_cons, List.foldlM_cons, hkey, htrace,
        List.all_cons]
      cases entry.2.isProgram with
      | true =>
          simp only [Bool.true_and, List.foldl_cons]
          exact ih (traces.insert entry.1 entry.2.shown)
      | false => rfl

/-- Whether every trace in the report is that of a program. -/
def onlyPrograms (r : ScenarioReport) : Bool := r.traces.toList.all fun entry => entry.2.isProgram

/-- The report without the settings of the traces in it. -/
def shown (r : ScenarioReport) : ScenarioReport :=
  { r with traces := r.traces.map fun _ t => t.shown }

variable (r : ScenarioReport)

theorem onlyPrograms_iff :
    r.onlyPrograms = true ↔
      ∀ (digest : Digest) (t : Trace), r.traces[digest]? = some t → t.isProgram = true := by
  simp only [onlyPrograms, List.all_eq_true, Prod.forall,
    Std.ExtTreeMap.mem_toList_iff_getElem?_eq_some]

/-- The traces are read all together or not at all. -/
theorem readTraces_toJson :
    readTraces (toJson r.traces) =
      if r.onlyPrograms then .ok r.shown.traces else .error .malformed := by
  have hshown : r.shown.traces.toList = r.traces.toList.map fun entry => (entry.1, entry.2.shown) :=
    Std.ExtTreeMap.toList_map
  change readTraces (record (entryMembers r.traces.toList)) = _
  rw [readTraces_entryMembers, ← hshown, foldl_insert_toList]
  rfl

/-- The members of a report. -/
def members : List (String × Json) :=
  [("chain", toJson r.chain), ("blocks", toJson r.blocks), ("accounts", toJson r.accounts)] ++
    (if r.traces.isEmpty then [] else [("traces", toJson r.traces)])

theorem readsBack_blocks : ReadsBack r.blocks :=
  readsBack_list fun result _ => result.readsBack_json

theorem readsBack_accounts : ReadsBack r.accounts :=
  readsBack_map (fun entry _ => nameReadsBack_address entry.1) fun entry _ => entry.2.readsBack_json

theorem scans : Scans (toJson r) := by
  have htraces : Scans (toJson r.traces) := scans_record fun member hmember => by
    obtain ⟨entry, -, rfl⟩ := List.mem_map.mp hmember
    exact entry.2.scans
  change Scans (record r.members)
  refine scans_record ?_
  simp only [members, List.forall_mem_append, List.forall_mem_cons]
  refine ⟨⟨scans_string r.chain, r.readsBack_blocks.scans, r.readsBack_accounts.scans,
    List.forall_mem_nil _⟩, ?_⟩
  split
  · exact List.forall_mem_nil _
  · exact List.forall_mem_cons.mpr ⟨htraces, List.forall_mem_nil _⟩

/-- The fields but the traces. -/
theorem reads_fields : (ScenarioReport.mk <$> .field "chain" <*> .field "blocks" <*>
    .field "accounts" : Record (Std.ExtTreeMap Digest Trace → ScenarioReport)).Reads r.members
      (ScenarioReport.mk r.chain r.blocks r.accounts) :=
  (((Record.reads_field (by simp [members]) (readsBack_string r.chain)).map ScenarioReport.mk).seq
    (Record.reads_field (by simp [members]) r.readsBack_blocks)).seq
    (Record.reads_field (by simp [members]) r.readsBack_accounts)

theorem names_members : (r.members.map (·.1)).Sublist fields.names := by
  rw [members]
  split
  · exact (List.prefix_append ["chain", "blocks", "accounts"] ["traces"]).sublist
  · exact .refl _

/-- A report without traces and one whose traces are those of programs are read. -/
theorem ofJson_of_onlyPrograms (h : r.onlyPrograms = true) : ofJson (toJson r) = .ok r.shown := by
  have htraces : (Record.fieldWith "traces" readTraces (some ∅) (some ∅)).Reads r.members
      r.shown.traces := by
    cases hempty : r.traces.isEmpty with
    | true =>
        have hnone : r.shown.traces = ∅ := by
          rw [shown, Std.ExtTreeMap.isEmpty_iff.mp hempty]
          rfl
        have hmissing : "traces" ∉ r.members.map (·.1) := by simp [members, hempty]
        intro _ place
        simp only [Record.fieldWith, Record.find?_eq_none hmissing, hnone]
    | false =>
        have hmember : ("traces", toJson r.traces) ∈ r.members := by simp [members, hempty]
        refine Record.reads_fieldWith hmember ?_
        rw [readTraces_toJson, if_pos h]
  exact (r.reads_fields.seq htraces).ofJson_record (by decide) r.names_members

/-- With the summary of a transfer the report is not read. -/
theorem ofJson_of_not_onlyPrograms (h : r.onlyPrograms = false) :
    (ofJson (toJson r) : Except Fault ScenarioReport) = .error .malformed := by
  have hsome : r.traces.isEmpty = false := by
    cases hempty : r.traces.isEmpty with
    | true =>
        rw [onlyPrograms, Std.ExtTreeMap.isEmpty_iff.mp hempty] at h
        exact nomatch h
    | false => rfl
  have hmembers : r.members = [("chain", toJson r.chain), ("blocks", toJson r.blocks),
      ("accounts", toJson r.accounts), ("traces", toJson r.traces)] := by
    simp only [members, hsome]
    rfl
  have hfound : Record.find? "traces" (named r.members) 0 = some (3, toJson r.traces) := by
    rw [hmembers]
    rfl
  have hnames : (r.members.map (·.1)).Nodup := .sublist r.names_members (by decide)
  have htraces : (Record.fieldWith "traces" readTraces (some ∅) (some ∅)).read
      (.members (named r.members)) 3 = .error (3, .malformed) := by
    rw [Record.read_fieldWith hfound, readTraces_toJson, h]
    rfl
  refine Record.ofEntries_of_fault ?_ (Record.read_seq_of_fault (r.reads_fields hnames 0) htraces)
  exact Record.checkMembers_named hnames
    (fun member hmember => r.names_members.subset (List.mem_map_of_mem hmember))
    (fun _ _ => List.not_mem_nil) 0

/-- What the text of a report is read as. -/
theorem read_writePretty :
    (Json.read (Json.writePretty r) : Except Fault ScenarioReport) =
      if r.onlyPrograms then .ok r.shown else .error .malformed := by
  rw [Json.read, Json.writePretty, r.scans.scan_pretty]
  cases h : r.onlyPrograms with
  | true => simp only [r.ofJson_of_onlyPrograms h]; rfl
  | false => simp only [r.ofJson_of_not_onlyPrograms h]; rfl

end ScenarioReport

/-! ## The reports of runs -/

theorem Job.isProgram_trace (j : Job) (e : Execution) :
    (j.trace e).isProgram = e.program.isSome := by
  cases hprogram : e.program with
  | none =>
      obtain ⟨t, ht⟩ := j.trace_of_no_program hprogram
      rw [ht]
      rfl
  | some program =>
      obtain ⟨t, ht⟩ := j.trace_of_program hprogram
      rw [ht]
      rfl

namespace ScenarioReport

variable {r : ScenarioReport}

theorem shown_of_no_traces (hnone : r.traces = ∅) : r.onlyPrograms = true ∧ r.shown = r := by
  cases r
  subst hnone
  exact ⟨rfl, rfl⟩

/-- Every trace is that of a program if every transaction last ran one. -/
theorem onlyPrograms_tracesOf {runs : List (Job × Execution)} (htraces : r.traces = tracesOf runs) :
    r.onlyPrograms = true ↔
      ∀ digest run, lastRun? runs digest = some run → run.2.program ≠ none := by
  rw [onlyPrograms_iff, htraces]
  refine forall_congr' fun digest => ?_
  rw [getElem?_tracesOf]
  cases lastRun? runs digest with
  | none => simp
  | some run => simp [Job.isProgram_trace, Option.isSome_iff_ne_none]

end ScenarioReport

namespace Scenario

variable {s : Scenario} {withTraces : Bool} {report : ScenarioReport}

/-- Without traces the report of a run is read back from its text.  With traces, which are those of
the last runs of the accepted transactions, it is read back but for the settings of programs' traces
if each of these runs had a program, and not read at all if one had none.  No run has a program
unless its transaction asks for one. -/
theorem report_read_back (hrun : s.run withTraces = .ok report) :
    ∃ p, s.execute = .ok p ∧
      (withTraces = false → Json.read (Json.writePretty report) = .ok report) ∧
      (withTraces = true →
        (∀ digest, report.traces[digest]? =
          (lastRun? p.runs digest).map fun run => run.1.trace run.2) ∧
        ((∀ digest run, lastRun? p.runs digest = some run → run.2.program ≠ none) →
          Json.read (Json.writePretty report) = .ok report.shown) ∧
        ((∃ digest run, lastRun? p.runs digest = some run ∧ run.2.program = none) →
          (Json.read (Json.writePretty report) : Except Json.Fault ScenarioReport) =
            .error .malformed)) ∧
      ∀ run ∈ p.runs, ∃ view senders, run.2 = run.1.execute view senders ∧
        (run.2.program ≠ none → run.1.AsksProgram view) := by
  obtain ⟨p, hexecute, hreport⟩ := exists_of_bind hrun
  have htraces : report.traces = if withTraces then tracesOf p.runs else ∅ := by
    rw [← Except.ok.inj hreport]
    rfl
  refine ⟨p, hexecute, fun hwithout => ?_, fun hwith => ?_, fun run hmem => ?_⟩
  · rw [hwithout] at htraces
    obtain ⟨honly, hshown⟩ := ScenarioReport.shown_of_no_traces htraces
    rw [report.read_writePretty, if_pos honly, hshown]
  · rw [hwith] at htraces
    have honly := ScenarioReport.onlyPrograms_tracesOf htraces
    refine ⟨fun digest => ?_, fun hall => ?_, fun hother => ?_⟩
    · rw [htraces]
      exact getElem?_tracesOf p.runs digest
    · rw [report.read_writePretty, if_pos (honly.mpr hall)]
    · obtain ⟨digest, run, hlast, hnone⟩ := hother
      rw [report.read_writePretty, if_neg fun h => honly.mp h digest run hlast hnone]
  · obtain ⟨hchain, haccepted, view, senders, hexecution⟩ :=
      ScenarioProgress.genuine_of_execute hexecute run hmem
    refine ⟨view, senders, hexecution, fun hprogram => ?_⟩
    rw [hexecution] at haccepted hprogram
    exact Job.asksProgram_of_accepted hchain haccepted hprogram

/-- A call of an account of the genesis, with or without code, by an account without money. -/
def calling (code : Option String) : Scenario where
  chain := { ChainConfig.mainnet with limits.feeToProtocol := false }
  genesis :=
    { Genesis.empty with
      accounts := Std.ExtTreeMap.ofList [(Octets.ofNat .address 7, { balance := 0, code })] compare }
  blocks := [{ transactions := [
    { secretKey := "a1a1a1a1a1a1a1a1a1a1a1a1a1a1a1a1a1a1a1a1a1a1a1a1a1a1a1a1a1a1a1a1"
      receiver := some (Octets.ofNat .address 7)
      gasLimit := 50000 }] }]

/-- The report of a scenario of one accepted transaction, which has run a program or has not. -/
theorem exists_report (s : Scenario) (ran : Bool)
    (hfacts : ∃ p ∈ s.execute.toOption, p.runs.map (·.2.program.isSome) = [ran]) :
    ∃ p run report, s.execute = .ok p ∧ s.run true = .ok report ∧
      report.traces = tracesOf p.runs ∧ run.2.program.isSome = ran ∧
      lastRun? p.runs run.1.transaction.hash = some run ∧
      ∀ digest last, lastRun? p.runs digest = some last → last = run := by
  obtain ⟨p, hmember, hran⟩ := hfacts
  have hexecute := eq_ok_of_mem_toOption hmember
  obtain ⟨run, hruns, hprogram⟩ := List.map_eq_singleton_iff.mp hran
  obtain ⟨report, hrun, htraces⟩ : ∃ report, s.run true = .ok report ∧
      report.traces = tracesOf p.runs := by
    rw [Scenario.run, hexecute]
    exact ⟨_, rfl, rfl⟩
  refine ⟨p, run, report, hexecute, hrun, htraces, hprogram, ?_, fun digest last hlast => ?_⟩
  · simp [lastRun?, hruns]
  · have hmem := List.mem_of_find?_eq_some hlast
    rw [hruns] at hmem
    simpa using hmem

/-- With code there the report is read back with the trace of a program in it. -/
theorem report_read_back_calling :
    ∃ report, (calling (some "0x01")).run true = .ok report ∧
      (∃ (digest : Digest) (t : ProgramTrace), report.traces[digest]? = some (.program t)) ∧
      Json.read (Json.writePretty report) = .ok report.shown := by
  obtain ⟨p, run, report, hexecute, hrun, -, hprogram, hlast, honly⟩ :=
    exists_report (calling (some "0x01")) true (by decide +kernel)
  obtain ⟨p', hexecute', -, hwith, -⟩ := report_read_back hrun
  obtain rfl := Except.ok.inj (hexecute.symm.trans hexecute')
  obtain ⟨htraces, hread, -⟩ := hwith rfl
  obtain ⟨program, hprogram⟩ := Option.isSome_iff_exists.mp hprogram
  refine ⟨report, hrun, ?_, hread fun digest last h => ?_⟩
  · obtain ⟨t, htrace⟩ := run.1.trace_of_program hprogram
    refine ⟨run.1.transaction.hash, t, ?_⟩
    rw [htraces, hlast, Option.map_some, htrace]
  · rw [honly digest last h, hprogram]
    exact Option.some_ne_none program

/-- Without code there the report of the call is not read. -/
theorem not_read_back_calling :
    ∃ report, (calling none).run true = .ok report ∧
      (Json.read (Json.writePretty report) : Except Json.Fault ScenarioReport) =
        .error .malformed := by
  obtain ⟨p, run, report, -, hrun, htraces, hnone, hlast, -⟩ :=
    exists_report (calling none) false (by decide +kernel)
  have hother : ¬report.onlyPrograms = true := by
    rw [ScenarioReport.onlyPrograms_tracesOf htraces]
    exact fun hall => hall _ run hlast (by simpa using hnone)
  exact ⟨report, hrun, by rw [report.read_writePretty, if_neg hother]⟩

end Scenario

end LedgerExec

import LedgerExec.Genesis
import LedgerExec.Proofs.Json.Hexadecimal
set_option autoImplicit false

/-!
# Configuration files read back

Each record of a configuration is read back from its members, the records in it first.  A
chain configuration and a genesis hold nothing that their text does not (`configurations_read_back`):
whatever the strings, the numbers and the maps are, reading the text in lines gives back
the value that was written.
-/

namespace LedgerExec

open Json

/-! ## Chain configurations -/

theorem TraceOptions.readsBack (o : TraceOptions) : ReadsBack o := by
  have henabled := readsBack_bool o.enabled
  have hsteps := readsBack_unsigned o.maxSteps
  refine ⟨scans_record ?_, Record.Reads.ofJson_record (r := fields) ?_ (by decide) (.refl _)⟩
  · simp only [List.forall_mem_cons]
    exact ⟨henabled.scans, hsteps.scans, List.forall_mem_nil _⟩
  · exact ((Record.reads_field (by simp) henabled).map TraceOptions.mk).seq
      (Record.reads_field (by simp) hsteps)

theorem Limits.readsBack (l : Limits) : ReadsBack l := by
  have hsize := readsBack_unsigned l.maxContractSize
  have hreceiver := readsBack_unsigned l.maxReceiverLength
  have hprotocol := readsBack_bool l.feeToProtocol
  have hcollector := readsBack_address l.feeCollector
  have hcache := readsBack_unsigned l.senderCacheSize
  refine ⟨scans_record ?_, Record.Reads.ofJson_record (r := fields) ?_ (by decide) (.refl _)⟩
  · simp only [List.forall_mem_cons]
    exact ⟨hsize.scans, hreceiver.scans, hprotocol.scans, hcollector.scans, hcache.scans,
      List.forall_mem_nil _⟩
  · exact (((((Record.reads_field (by simp) hsize).map Limits.mk).seq
      (Record.reads_field (by simp) hreceiver)).seq
      (Record.reads_field (by simp) hprotocol)).seq
      (Record.reads_field (by simp) hcollector)).seq
      (Record.reads_field (by simp) hcache)

theorem SetupPolicy.readsBack (p : SetupPolicy) : ReadsBack p := by
  have htarget := readsBack_option_address p.target
  have hauthorized : ReadsBack p.authorized :=
    readsBack_list fun address _ => readsBack_address address
  refine ⟨scans_record ?_, Record.Reads.ofJson_record (r := fields) ?_ (by decide) (.refl _)⟩
  · simp only [List.forall_mem_cons]
    exact ⟨htarget.scans, hauthorized.scans, List.forall_mem_nil _⟩
  · exact ((Record.reads_fieldOrNull (by simp) htarget).map SetupPolicy.mk).seq
      (Record.reads_field (by simp) hauthorized)

/-- The name of an upgrade is read as the upgrade. -/
theorem Upgrade.nameReadsBack (x : Upgrade) : NameReadsBack x := by
  simp only [NameReadsBack, Key.toKey, Key.ofKey, ofName?_name]

theorem UpgradeSchedule.readsBack (s : UpgradeSchedule) : ReadsBack s := by
  have hheights : ReadsBack s.heights :=
    readsBack_map (fun entry _ => entry.1.nameReadsBack) fun entry _ => readsBack_unsigned entry.2
  refine ⟨scans_record ?_, Record.Reads.ofJson_record (r := fields) ?_ (by decide) (.refl _)⟩
  · simp only [List.forall_mem_cons]
    exact ⟨hheights.scans, List.forall_mem_nil _⟩
  · exact (Record.reads_field (by simp) hheights).map UpgradeSchedule.mk

theorem ChainConfig.readsBack (c : ChainConfig) : ReadsBack c := by
  have hname := readsBack_string c.name
  have hid := readsBack_unsigned c.chainId
  have hlimits := c.limits.readsBack
  have hsetup := c.setup.readsBack
  have hupgrades := c.upgrades.readsBack
  have htracing := c.tracing.readsBack
  refine ⟨scans_record ?_, Record.Reads.ofJson_record (r := fields) ?_ (by decide) (.refl _)⟩
  · simp only [List.forall_mem_cons]
    exact ⟨hname.scans, hid.scans, hlimits.scans, hsetup.scans, hupgrades.scans, htracing.scans,
      List.forall_mem_nil _⟩
  · exact ((((((Record.reads_field (by simp) hname).map ChainConfig.mk).seq
      (Record.reads_field (by simp) hid)).seq
      (Record.reads_field (by simp) hlimits)).seq
      (Record.reads_field (by simp) hsetup)).seq
      (Record.reads_field (by simp) hupgrades)).seq
      (Record.reads_fieldOr {} (by simp) htracing)

/-! ## Genesis -/

theorem GenesisAccount.readsBack (a : GenesisAccount) : ReadsBack a := by
  have hbalance := readsBack_unsigned a.balance
  have hnonce := readsBack_unsigned a.nonce
  have hcode := readsBack_option_string a.code
  let front : List (String × Json) := [("balance", toJson a.balance), ("nonce", toJson a.nonce)]
  have hmembers : front ++ member? "code" a.code = front ++ (member? "code" a.code ++ []) :=
    congrArg (front ++ ·) (List.append_nil _).symm
  refine ⟨scans_record ?_, Record.Reads.ofJson_record (r := fields) ?_ (by decide) ?_⟩
  · simp only [List.forall_mem_append, List.forall_mem_cons]
    exact ⟨⟨hbalance.scans, hnonce.scans, List.forall_mem_nil _⟩, scans_member? hcode⟩
  · exact (((Record.reads_field (by simp) hbalance).map GenesisAccount.mk).seq
      (Record.reads_fieldOr 0 (by simp) hnonce)).seq
      (Record.reads_member? hcode hmembers (by simp [front]) (by simp))
  · simp only [List.map_append, names_member?, List.map_cons, List.map_nil]
    cases a.code.isSome <;> decide

theorem Genesis.readsBack (g : Genesis) : ReadsBack g := by
  have htimestamp := readsBack_unsigned g.timestamp
  have hgas := readsBack_unsigned g.gasLimit
  have hcoinbase := readsBack_address g.coinbase
  have haccounts : ReadsBack g.accounts :=
    readsBack_map (fun entry _ => nameReadsBack_address entry.1) fun entry _ => entry.2.readsBack
  refine ⟨scans_record ?_, Record.Reads.ofJson_record (r := fields) ?_ (by decide) (.refl _)⟩
  · simp only [List.forall_mem_cons]
    exact ⟨htimestamp.scans, hgas.scans, hcoinbase.scans, haccounts.scans, List.forall_mem_nil _⟩
  · exact ((((Record.reads_field (by simp) htimestamp).map Genesis.mk).seq
      (Record.reads_field (by simp) hgas)).seq
      (Record.reads_fieldOr Octets.zero (by simp) hcoinbase)).seq
      (Record.reads_fieldOr ∅ (by simp) haccounts)

/-- Every chain configuration and every genesis is read back from its text in lines. -/
theorem configurations_read_back :
    (∀ c : ChainConfig, Json.read (Json.writePretty c) = .ok c) ∧
      ∀ g : Genesis, Json.read (Json.writePretty g) = .ok g :=
  ⟨fun c => c.readsBack.read_writePretty, fun g => g.readsBack.read_writePretty⟩

end LedgerExec

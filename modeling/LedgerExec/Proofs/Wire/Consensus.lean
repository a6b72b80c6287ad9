import LedgerExec.Block
import LedgerExec.Receipt
import LedgerExec.Proofs.Wire.ReadBack
set_option autoImplicit false

/-!
# The bytes of the consensus values

What is hashed and signed is the layout of payloads, transactions, headers, blocks, logs
and receipts.  Here each layout is written out byte by byte, `Wire.Lossless` says that
values are written by it and read back, and `lossless_consensus` that this holds of all
six: a digest or a signature covers every field of what it is taken of.

The one condition is on lengths.  A sequence is preceded by its length in eight bytes, so
a value is asked to hold no sequence of more than `2 ^ 64 - 1` entries.
-/

namespace LedgerExec

/-- A byte string after its length. -/
def Bytes.counted (bytes : Bytes) : Bytes := Bytes.littleEndian 8 bytes.length ++ bytes

/-- The values of a type are written by a layout, and those that fit are read back, so no two of
them are written alike. -/
structure Wire.Lossless {α : Type} [Wire α] (layout : α → Bytes) (Fits : α → Prop) : Prop where
  encode_eq : ∀ x, Wire.encode x = layout x
  readsBack : ∀ x, Fits x → Wire.ReadsBack x
  encode_inj : ∀ x y, Fits x → Fits y → Wire.encode x = Wire.encode y → x = y

theorem Wire.lossless_of_readsBack {α : Type} [Wire α] {layout : α → Bytes} {Fits : α → Prop}
    (hlayout : ∀ x, Wire.encode x = layout x) (hreads : ∀ x, Fits x → Wire.ReadsBack x) :
    Wire.Lossless layout Fits where
  encode_eq := hlayout
  readsBack := hreads
  encode_inj x y hx hy := (hreads x hx).encode_inj (hreads y hy)

/-- A byte string is written after its length. -/
theorem encode_bytes (bytes : Bytes) : Wire.encode bytes = bytes.counted := by
  have hentries : bytes.flatMap Wire.encode = bytes := List.flatMap_singleton' bytes
  change Wire.encodeLength bytes.length ++ bytes.flatMap Wire.encode = _
  rw [hentries]
  rfl

/-- The entries of a list are written after its length, each by its own layout. -/
theorem encode_list {α : Type} [Wire α] {layout : α → Bytes}
    (hlayout : ∀ x, Wire.encode x = layout x) (xs : List α) :
    Wire.encode xs = Bytes.littleEndian 8 xs.length ++ xs.flatMap layout := by
  rw [← funext hlayout]
  rfl

/-! ## Payloads -/

namespace Payload

variable {p : Payload}

/-- The bytes of a payload. -/
def layout (p : Payload) : Bytes :=
  Bytes.littleEndian 8 p.nonce.toNat ++ Bytes.littleEndian 16 p.gasPrice.toNat ++
    Bytes.littleEndian 8 p.gasLimit.toNat ++ Bytes.littleEndian 8 p.rentGasLimit.toNat ++
    p.receiver.counted ++ Bytes.littleEndian 16 p.value.toNat ++ p.data.counted ++
    Bytes.littleEndian 1 p.chainId.toNat

/-- The lengths in a payload have a spelling. -/
structure Fits (p : Payload) : Prop where
  receiver : p.receiver.length < 1 <<< 64
  data : p.data.length < 1 <<< 64

instance (p : Payload) : Decidable p.Fits :=
  decidable_of_iff (p.receiver.length < 1 <<< 64 ∧ p.data.length < 1 <<< 64)
    ⟨fun h => ⟨h.1, h.2⟩, fun h => ⟨h.receiver, h.data⟩⟩

theorem encode_eq_layout (p : Payload) : Wire.encode p = p.layout := by
  rw [layout, ← encode_bytes, ← encode_bytes]
  rfl

theorem Fits.readsBack (h : p.Fits) : Wire.ReadsBack p := by
  intro rest
  have hreceiver := Wire.readsBack_bytes h.receiver
  have hdata := Wire.readsBack_bytes h.data
  rw [Wire.encode, instWire]
  simp only [List.append_assoc, (Wire.readsBack_unsigned _).run_bind, hreceiver.run_bind,
    hdata.run_bind]
  rfl

/-- The message that is signed is a fixed text before the bytes of the payload. -/
theorem signingMessage_inj {p q : Payload} (hp : p.Fits) (hq : q.Fits)
    (hmessage : p.signingMessage = q.signingMessage) : p = q :=
  hp.readsBack.encode_inj hq.readsBack (List.append_cancel_left hmessage)

end Payload

/-! ## Transactions -/

namespace Envelope

theorem readsBack (e : Envelope) : Wire.ReadsBack e := by
  intro rest
  rw [Wire.encode, instWire]
  simp only [List.append_assoc, (Wire.readsBack_octets _).run_bind]
  rfl

end Envelope

namespace Authority

/-- The bytes of an authority.  Of all fixed byte strings the signature alone is preceded by its
length. -/
def layout : Authority → Bytes
  | .signed e => Bytes.littleEndian 4 0 ++ (e.publicKey.toBytes ++ e.signature.toBytes.counted)
  | .localCall sender => Bytes.littleEndian 4 1 ++ sender.toBytes

theorem encode_eq_layout (a : Authority) : Wire.encode a = a.layout := by
  cases a with
  | signed e =>
      rw [layout, Bytes.counted, Octets.length_toBytes]
      rfl
  | localCall sender => rfl

theorem readsBack (a : Authority) : Wire.ReadsBack a := by
  intro rest
  cases a with
  | signed e =>
      rw [Wire.encode, instWire]
      simp only [List.append_assoc]
      refine (Wire.run_decodeCase_bind (by decide) _ _).trans ?_
      exact e.readsBack.run_bind _ _
  | localCall sender =>
      rw [Wire.encode, instWire]
      simp only [List.append_assoc]
      refine (Wire.run_decodeCase_bind (by decide) _ _).trans ?_
      exact (Wire.readsBack_octets sender).run_bind _ _

end Authority

namespace Transaction

variable {t : Transaction}

/-- The bytes of a transaction. -/
def layout (t : Transaction) : Bytes := t.payload.layout ++ t.authority.layout

/-- The lengths in a transaction have a spelling. -/
def Fits (t : Transaction) : Prop := t.payload.Fits

instance (t : Transaction) : Decidable t.Fits := inferInstanceAs (Decidable t.payload.Fits)

theorem encode_eq_layout (t : Transaction) : Wire.encode t = t.layout := by
  rw [layout, ← Payload.encode_eq_layout, ← Authority.encode_eq_layout]
  rfl

theorem Fits.readsBack (h : t.Fits) : Wire.ReadsBack t := by
  intro rest
  rw [Wire.encode, instWire]
  simp only [List.append_assoc, (Payload.Fits.readsBack h).run_bind,
    t.authority.readsBack.run_bind]
  rfl

end Transaction

/-! ## Blocks -/

namespace Header

/-- The bytes of a header. -/
def layout (h : Header) : Bytes :=
  Bytes.littleEndian 8 h.number.toNat ++ h.parentHash.toBytes ++ h.coinbase.toBytes ++
    Bytes.littleEndian 8 h.timestamp.toNat ++ Bytes.littleEndian 8 h.gasLimit.toNat

theorem encode_eq_layout (h : Header) : Wire.encode h = h.layout := rfl

theorem readsBack (h : Header) : Wire.ReadsBack h := by
  intro rest
  rw [Wire.encode, instWire]
  simp only [List.append_assoc, (Wire.readsBack_unsigned _).run_bind,
    (Wire.readsBack_octets _).run_bind]
  rfl

end Header

namespace Block

variable {b : Block}

/-- The bytes of a block. -/
def layout (b : Block) : Bytes :=
  b.header.layout ++
    (Bytes.littleEndian 8 b.transactions.length ++ b.transactions.flatMap Transaction.layout)

/-- The lengths in a block have a spelling. -/
structure Fits (b : Block) : Prop where
  transactions : b.transactions.length < 1 <<< 64
  each : ∀ t ∈ b.transactions, t.Fits

instance (b : Block) : Decidable b.Fits :=
  decidable_of_iff (b.transactions.length < 1 <<< 64 ∧ ∀ t ∈ b.transactions, t.Fits)
    ⟨fun h => ⟨h.1, h.2⟩, fun h => ⟨h.transactions, h.each⟩⟩

theorem encode_eq_layout (b : Block) : Wire.encode b = b.layout := by
  rw [layout, ← encode_list Transaction.encode_eq_layout, ← Header.encode_eq_layout]
  rfl

theorem Fits.readsBack (h : b.Fits) : Wire.ReadsBack b := by
  intro rest
  have htransactions := Wire.readsBack_list h.transactions fun t ht => (h.each t ht).readsBack
  rw [Wire.encode, instWire]
  simp only [List.append_assoc, b.header.readsBack.run_bind, htransactions.run_bind]
  rfl

end Block

/-! ## Receipts -/

namespace Log

variable {l : Log}

/-- The bytes of a log. -/
def layout (l : Log) : Bytes :=
  l.address.toBytes ++
    (Bytes.littleEndian 8 l.topics.length ++ l.topics.flatMap Octets.toBytes) ++
    l.data.counted ++ [if l.rejected then 1 else 0]

/-- The lengths in a log have a spelling. -/
structure Fits (l : Log) : Prop where
  topics : l.topics.length < 1 <<< 64
  data : l.data.length < 1 <<< 64

instance (l : Log) : Decidable l.Fits :=
  decidable_of_iff (l.topics.length < 1 <<< 64 ∧ l.data.length < 1 <<< 64)
    ⟨fun h => ⟨h.1, h.2⟩, fun h => ⟨h.topics, h.data⟩⟩

theorem encode_eq_layout (l : Log) : Wire.encode l = l.layout := by
  have htopic (topic : Word) : Wire.encode topic = topic.toBytes := rfl
  rw [layout, ← encode_list htopic, ← encode_bytes]
  rfl

theorem Fits.readsBack (h : l.Fits) : Wire.ReadsBack l := by
  intro rest
  have htopics := Wire.readsBack_list h.topics fun topic _ => Wire.readsBack_octets topic
  have hdata := Wire.readsBack_bytes h.data
  rw [Wire.encode, instWire]
  simp only [List.append_assoc, (Wire.readsBack_octets _).run_bind, htopics.run_bind,
    hdata.run_bind, (Wire.readsBack_bool _).run_bind]
  rfl

end Log

namespace Status

/-- The bytes of a status. -/
def layout : Status → Bytes
  | .success => Bytes.littleEndian 4 0
  | .failed => Bytes.littleEndian 4 1

theorem readsBack (s : Status) : Wire.ReadsBack s := by
  intro rest
  cases s with
  | success => exact Wire.run_decodeCase_bind (by decide) _ _
  | failed => exact Wire.run_decodeCase_bind (by decide) _ _

end Status

namespace Receipt

variable {r : Receipt}

/-- The bytes of a receipt. -/
def layout (r : Receipt) : Bytes :=
  r.transaction.toBytes ++ Bytes.littleEndian 8 r.cumulativeGas.toNat ++
    Bytes.littleEndian 8 r.gasUsed.toNat ++ Bytes.littleEndian 8 r.rentGasUsed.toNat ++
    r.status.layout ++ (Bytes.littleEndian 8 r.logs.length ++ r.logs.flatMap Log.layout)

/-- The lengths in a receipt have a spelling. -/
structure Fits (r : Receipt) : Prop where
  logs : r.logs.length < 1 <<< 64
  each : ∀ l ∈ r.logs, l.Fits

instance (r : Receipt) : Decidable r.Fits :=
  decidable_of_iff (r.logs.length < 1 <<< 64 ∧ ∀ l ∈ r.logs, l.Fits)
    ⟨fun h => ⟨h.1, h.2⟩, fun h => ⟨h.logs, h.each⟩⟩

theorem encode_eq_layout (r : Receipt) : Wire.encode r = r.layout := by
  have hstatus : r.status.layout = Wire.encode r.status := by cases r.status <;> rfl
  rw [layout, ← encode_list Log.encode_eq_layout, hstatus]
  rfl

theorem Fits.readsBack (h : r.Fits) : Wire.ReadsBack r := by
  intro rest
  have hlogs := Wire.readsBack_list h.logs fun l hl => (h.each l hl).readsBack
  rw [Wire.encode, instWire]
  simp only [List.append_assoc, (Wire.readsBack_octets _).run_bind,
    (Wire.readsBack_unsigned _).run_bind, r.status.readsBack.run_bind, hlogs.run_bind]
  rfl

end Receipt

/-! ## All of them -/

/-- Every consensus value is written by its layout, read back from it, and told apart by it; a
payload by the message that is signed as well. -/
theorem lossless_consensus :
    Wire.Lossless Payload.layout Payload.Fits ∧
      Wire.Lossless Transaction.layout Transaction.Fits ∧
      Wire.Lossless Header.layout (fun _ => True) ∧
      Wire.Lossless Block.layout Block.Fits ∧
      Wire.Lossless Log.layout Log.Fits ∧
      Wire.Lossless Receipt.layout Receipt.Fits ∧
      ∀ p q : Payload, p.Fits → q.Fits → p.signingMessage = q.signingMessage → p = q :=
  ⟨Wire.lossless_of_readsBack Payload.encode_eq_layout fun _ h => h.readsBack,
    Wire.lossless_of_readsBack Transaction.encode_eq_layout fun _ h => h.readsBack,
    Wire.lossless_of_readsBack Header.encode_eq_layout fun h _ => h.readsBack,
    Wire.lossless_of_readsBack Block.encode_eq_layout fun _ h => h.readsBack,
    Wire.lossless_of_readsBack Log.encode_eq_layout fun _ h => h.readsBack,
    Wire.lossless_of_readsBack Receipt.encode_eq_layout fun _ h => h.readsBack,
    fun _ _ hp hq => Payload.signingMessage_inj hp hq⟩

/-- A block of a signed creation and a local call. -/
def Block.mixed : Block where
  header :=
    { number := 7
      parentHash := Octets.ofNat .digest 1
      coinbase := Octets.ofNat .address 9
      timestamp := 1000
      gasLimit := 6800000 }
  transactions :=
    [ ⟨{ nonce := 3, gasPrice := 2, gasLimit := 60000, data := [1, 0, 255], chainId := 33 },
        .signed ⟨Octets.ofNat .publicKey 5, Octets.ofNat .signature 6⟩⟩,
      ⟨{ receiver := [4, 5], value := Unsigned.greatest 128 },
        .localCall (Octets.ofNat .address 8)⟩ ]

/-- A receipt with an accepted and a rejected log. -/
def Receipt.logged : Receipt where
  transaction := Octets.ofNat .digest 2
  cumulativeGas := 70000
  gasUsed := 30000
  rentGasUsed := 10
  status := .failed
  logs :=
    [ { address := Octets.ofNat .address 5, topics := [Octets.ofNat .word 1, Octets.zero],
        data := [9, 9] },
      { address := Octets.ofNat .address 6, topics := [], data := [], rejected := true } ]

theorem lossless_consensus_mixed :
    Wire.decodeFront? (Wire.encode Block.mixed) = some Block.mixed ∧
      Wire.decodeFront? (Wire.encode Receipt.logged ++ [1, 2]) = some Receipt.logged ∧
      (Block.mixed.transactions.map (·.payload.signingMessage)).Nodup := by
  have hpayloads : ∀ t ∈ Block.mixed.transactions, t.payload.Fits := by decide
  have hdistinct : (Block.mixed.transactions.map (·.payload)).Nodup := by decide
  obtain ⟨-, -, -, hblock, -, hreceipt, hmessage⟩ := lossless_consensus
  refine ⟨?_, ?_, ?_⟩
  · have hreads := hblock.readsBack Block.mixed (by decide)
    simpa using hreads.decodeFront? []
  · exact (hreceipt.readsBack Receipt.logged (by decide)).decodeFront? [1, 2]
  · rw [List.Nodup, List.pairwise_map] at hdistinct ⊢
    refine hdistinct.imp_of_mem fun ht hs hother hsame => hother ?_
    exact hmessage _ _ (hpayloads _ ht) (hpayloads _ hs) hsame

end LedgerExec

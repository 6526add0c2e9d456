import TrustBoundary.Event.Alert
import TrustBoundary.Event.Transaction
import TrustBoundary.Proofs.Event.Timestamps
import TrustBoundary.Proofs.Json.Scaling

/-!
# Events are read from their texts

The text of an alert or of a transaction with a finite amount is read member by member
(`Alert.takes_head`, `Transaction.takes_head`).  Strings, the names of types and timestamps come
back as they were, whatever characters they hold.  The amount comes back as the number that a reader
makes of its text (`Json.reread?`), which is not always the same double.  It is if the digits of the
text make a whole number below `2 ^ 53` and the power of ten behind them is at most the
twenty-second, up or down.
-/

namespace TrustBoundary

open Json

variable {x : Float} {n : Number}

/-! ### Amounts and timestamps -/

theorem Json.reads_floatDecoder (hfinite : x.isFinite = true) (h : reread? x = some n) :
    floatDecoder.Reads (.ofFloat x) n.toFloat := by
  rw [Value.ofFloat_of_isFinite hfinite]
  refine Decoder.Reads.map (fun rest hrest => ?_) Number.toFloat
  rw [Value.chars, Number.text, numberDecoder_ofFloat "f64" hfinite hrest, reread_eq, h]

theorem Json.floatDecoder_stops (hfinite : x.isFinite = true) (h : reread? x = none)
    {rest : List Char} (hrest : Numeral.EndsBefore rest) :
    floatDecoder ((Value.ofFloat x).chars ++ rest) = stop .numberOutOfRange rest := by
  rw [Value.ofFloat_of_isFinite hfinite, floatDecoder, Decoder.map, Value.chars, Number.text,
    numberDecoder_ofFloat "f64" hfinite hrest, reread_eq, h]
  rfl

/-- A shape stops at an amount of which no number is read. -/
theorem enterMember_amount_stops {δ α : Type} {s : Shape δ α} {m : Member δ} {d : δ}
    {enter : Float → δ → δ} (hm : s.members.find? (·.name = "amount") = some m)
    (hfree : m.isEntered d = false) (hread : m.read = Decoder.map enter floatDecoder)
    (hfinite : x.isFinite = true) (h : reread? x = none) (rest : List Char)
    (hrest : Numeral.EndsBefore rest) :
    s.enterMember d "amount" (':' :: ((Value.ofFloat x).chars ++ rest)) =
      .error ⟨.numberOutOfRange, rest, 0⟩ := by
  refine Shape.enterMember_of_error hm hfree ?_
  rw [hread, Decoder.map, floatDecoder_stops hfinite h hrest]
  rfl

theorem reads_timestampDecoder (t : Timestamp) :
    timestampDecoder.Reads (.string t.text) t := by
  intro rest hrest
  refine bind_eq_ok_iff.2 ⟨_, reads_stringDecoder _ t.text rest hrest, ?_⟩
  dsimp only
  rw [Timestamp.read_text]
  rfl

/-! ### Alerts -/

namespace Alert

/-- The members of an alert in front of its amount are taken. -/
theorem takes_head (a : Alert) :
    Takes shape.enterMember shape.blank
      [("type", .string a.type.name), ("risk", .string a.risk.name)]
      { type := some a.type, risk := some a.risk } := by
  have htype : (choiceDecoder AlertType.named).Reads (.string a.type.name) a.type :=
    reads_choiceDecoder (by cases a.type; rfl)
  have hrisk : (choiceDecoder RiskLevel.named).Reads (.string a.risk.name) a.risk :=
    reads_choiceDecoder (by cases a.risk <;> rfl)
  exact Shape.takes_cons rfl rfl (htype.map _) <|
    Shape.takes_cons rfl rfl (hrisk.map _) <| .nil _

/-- The id is taken, or there is none to take. -/
theorem takes_eventId (d : Draft) (hfree : d.eventId = none) (id : Option String) :
    Takes shape.enterMember d (id.map fun id => ("eventId", Value.string id)).toList
      { d with eventId := id.map some } := by
  cases id with
  | none =>
    rw [Option.map_none, Option.map_none, ← hfree]
    exact .nil d
  | some id =>
    have hid := reads_optionalDecoder_string id
    have hmissing : d.eventId.isSome = false := by rw [hfree, Option.isSome_none]
    exact Shape.takes_cons rfl hmissing (hid.map _) <| .nil _

/-- An alert comes back with the amount that is read for its amount. -/
theorem read_text_of_some (a : Alert) (hfinite : a.amount.isFinite = true)
    (h : reread? a.amount = some n) : read a.text = .ok { a with amount := n.toFloat } := by
  have hamount : Takes shape.enterMember { type := some a.type, risk := some a.risk }
      [("amount", .ofFloat a.amount)]
      { type := some a.type, risk := some a.risk, amount := some n.toFloat } :=
    Shape.takes_cons rfl rfl ((reads_floatDecoder hfinite h).map _) <| .nil _
  have htakes := a.takes_head.append (hamount.append (takes_eventId _ rfl a.eventId))
  have hreads : shape.decoder.Reads a.toValue { a with amount := n.toFloat } :=
    Shape.reads_decoder htakes (by cases ha : a.eventId <;> rfl)
  exact hreads.run

/-- An alert is refused if no number is read for its amount. -/
theorem read_text_of_none (a : Alert) (hfinite : a.amount.isFinite = true)
    (h : reread? a.amount = none) :
    ∃ place, read a.text = .error ⟨.numberOutOfRange, place⟩ :=
  Decoder.run_eq_error (Shape.decoder_stops a.takes_head
    (enterMember_amount_stops rfl rfl rfl hfinite h)) rfl

end Alert

/-! ### Transactions -/

namespace Transaction

/-- The members of a transaction behind its amount are taken. -/
theorem takes_tail (t : Transaction) (x : Float) :
    Takes shape.enterMember { id := some t.id, amount := some x }
      [("currency", .string t.currency), ("sourceAccount", .string t.source),
        ("destinationAccount", .string t.destination), ("type", .string t.type.name),
        ("channel", .string t.channel.name), ("timestamp", .string t.timestamp.text)]
      ⟨some t.id, some x, some t.currency, some t.source, some t.destination, some t.type,
        some t.channel, some t.timestamp⟩ := by
  -- the names of the elements are told apart
  have htype : (choiceDecoder TransactionType.named).Reads (.string t.type.name) t.type :=
    reads_choiceDecoder (by cases t.type <;> rfl)
  have hchannel : (choiceDecoder Channel.named).Reads (.string t.channel.name) t.channel :=
    reads_choiceDecoder (by cases t.channel <;> rfl)
  exact Shape.takes_cons rfl rfl ((reads_textDecoder t.currency).map _) <|
    Shape.takes_cons rfl rfl ((reads_textDecoder t.source).map _) <|
    Shape.takes_cons rfl rfl ((reads_textDecoder t.destination).map _) <|
    Shape.takes_cons rfl rfl (htype.map _) <|
    Shape.takes_cons rfl rfl (hchannel.map _) <|
    Shape.takes_cons rfl rfl ((reads_timestampDecoder t.timestamp).map _) <| .nil _

/-- The id of a transaction is taken first. -/
theorem takes_id (t : Transaction) :
    Takes shape.enterMember shape.blank [("transactionId", .string t.id)] { id := some t.id } :=
  Shape.takes_cons rfl rfl ((reads_textDecoder t.id).map _) <| .nil _

/-- A transaction comes back with the amount that is read for its amount. -/
theorem read_text_of_some (t : Transaction) (hfinite : t.amount.isFinite = true)
    (h : reread? t.amount = some n) : read t.text = .ok { t with amount := n.toFloat } := by
  have hamount : Takes shape.enterMember { id := some t.id } [("amount", .ofFloat t.amount)]
      { id := some t.id, amount := some n.toFloat } :=
    Shape.takes_cons rfl rfl ((reads_floatDecoder hfinite h).map _) <| .nil _
  have htakes := t.takes_id.append (hamount.append (t.takes_tail n.toFloat))
  have hreads : shape.decoder.Reads t.toValue { t with amount := n.toFloat } :=
    Shape.reads_decoder htakes rfl
  exact hreads.run

/-- A transaction is refused if no number is read for its amount. -/
theorem read_text_of_none (t : Transaction) (hfinite : t.amount.isFinite = true)
    (h : reread? t.amount = none) :
    ∃ place, read t.text = .error ⟨.numberOutOfRange, place⟩ :=
  Decoder.run_eq_error (Shape.decoder_stops t.takes_id
    (enterMember_amount_stops rfl rfl rfl hfinite h)) rfl

end Transaction

/-! ### Round trips -/

/-- A text that is read with the number for an amount, and refused without one. -/
theorem eq_ok_iff_of_reread {α ε : Type} {result : Except ε α} {enter : Number → α}
    (hsome : ∀ n, reread? x = some n → result = .ok (enter n))
    (hnone : reread? x = none → ∃ e, result = .error e) (a : α) :
    result = .ok a ↔ ∃ n, reread? x = some n ∧ a = enter n := by
  cases h : reread? x with
  | none =>
    obtain ⟨e, he⟩ := hnone h
    simp [he]
  | some n =>
    rw [hsome n h]
    simp [eq_comm]

/-- An event with a finite amount is read from its text with every part as it was but for the
amount, and the amount is the number that is read for it; without such a number the text is refused.
That number is the amount itself if its digits fit a significand and the power of ten is a
double. -/
theorem read_text_eq_ok_iff (x : Float) (hfinite : x.isFinite = true) :
    (∀ a b : Alert, a.amount = x → (Alert.read a.text = .ok b ↔
      ∃ n, reread? x = some n ∧ b = { a with amount := n.toFloat })) ∧
    (∀ t u : Transaction, t.amount = x → (Transaction.read t.text = .ok u ↔
      ∃ n, reread? x = some n ∧ u = { t with amount := n.toFloat })) ∧
    ((Decimal.floatAsRead x).1 < 9007199254740992 → -22 ≤ (Decimal.floatAsRead x).2 →
      (Decimal.floatAsRead x).2 ≤ 22 → reread? x = some (.float x hfinite)) := by
  refine ⟨?_, ?_, reread?_eq_some_self hfinite⟩
  · rintro a b rfl
    refine eq_ok_iff_of_reread (fun n h => a.read_text_of_some hfinite h) (fun h => ?_) b
    obtain ⟨place, hread⟩ := a.read_text_of_none hfinite h
    exact ⟨_, hread⟩
  · rintro t u rfl
    refine eq_ok_iff_of_reread (fun n h => t.read_text_of_some hfinite h) (fun h => ?_) u
    obtain ⟨place, hread⟩ := t.read_text_of_none hfinite h
    exact ⟨_, hread⟩

/-- An alert with an amount of seventeen digits. -/
def finelyPricedAlert : Alert := .highValue (.ofBits 0x40c3880000000003) none

/-- An alert with an amount in cents. -/
def pricedAlert : Alert := .highValue (.ofBits 0x40c81cca3d70a3d7) (some "tx-1")

theorem read_text_eq_ok_iff_pricedAlerts :
    Alert.read finelyPricedAlert.text =
      .ok { finelyPricedAlert with amount := .ofBits 0x40c3880000000002 } ∧
    Alert.read pricedAlert.text = .ok pricedAlert := by
  constructor
  · refine ((read_text_eq_ok_iff (.ofBits 0x40c3880000000003) (by decide +kernel)).1
      finelyPricedAlert _ rfl).2
        ⟨.float (.ofBits 0x40c3880000000002) (by decide +kernel), ?_, rfl⟩
    decide +kernel
  · obtain ⟨halert, -, hexact⟩ :=
      read_text_eq_ok_iff (.ofBits 0x40c81cca3d70a3d7) (by decide +kernel)
    exact (halert pricedAlert _ rfl).2
      ⟨_, hexact (by decide +kernel) (by decide +kernel) (by decide +kernel), rfl⟩

/-- Not every alert with a finite amount is read back as it was. -/
theorem not_forall_read_text :
    ¬ ∀ a : Alert, a.amount.isFinite = true → Alert.read a.text = .ok a := by
  intro h
  have hread := h finelyPricedAlert (by decide +kernel)
  obtain ⟨n, hn⟩ : ∃ n, reread? finelyPricedAlert.amount = some n ∧
      n.toFloat = .ofBits 0x40c3880000000002 :=
    ⟨.float (.ofBits 0x40c3880000000002) (by decide +kernel), by decide +kernel, rfl⟩
  rw [finelyPricedAlert.read_text_of_some (by decide +kernel) hn.1, hn.2] at hread
  have hamount := congrArg Alert.amount (Except.ok.inj hread)
  exact absurd hamount (by decide +kernel)

end TrustBoundary

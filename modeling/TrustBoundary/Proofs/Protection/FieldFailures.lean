import TrustBoundary.Proofs.Protection.Migration

/-!
# Where changing the fields of a record stops

A change that fails leaves the record to the changes before it: they have all been made, and no
other one (`changeFields_eq_error_iff`).  So the record that is left behind is known from the place
at which the run has stopped, also if the field that is named there has been changed before.
Storing stops only where a text is too long, and recovering where a value cannot be recovered
(`encryptFields_decryptFields_outcome`).
-/

namespace TrustBoundary.Encryptor

/-! ### Any changes -/

section

variable {ε : Type} {change : Nat → String → Except ε String} {names : List String} {r s : Record}

/-- A text that is changed stays a text. -/
theorem countTexts_insert {name old : String} (h : textAt? r name = some old) (new : String)
    (names : List String) : countTexts (r.insert name (.text new)) names = countTexts r names := by
  refine List.countP_congr fun key _ => ?_
  rw [textAt?_insert]
  split
  next heq => rw [← heq, h, Option.isSome_some, Option.isSome_some]
  next => rfl

/-- A run that succeeds counts the places with the name of a text. -/
theorem eq_countTexts_of_changeFields {count : Nat}
    (h : changeFields change names r = (.ok count, s)) : count = countTexts r names := by
  induction names generalizing change r count with
  | nil => exact (Except.ok.inj (congrArg Prod.fst h)).symm
  | cons name names ih =>
    rw [countTexts, List.countP_cons, ← countTexts]
    cases htext : textAt? r name with
    | none =>
      rw [changeFields_cons_of_none htext] at h
      exact ih h
    | some old =>
      cases hnew : change 0 old with
      | error e =>
        rw [changeFields_cons_of_error htext hnew] at h
        cases congrArg Prod.fst h
      | ok new =>
        rw [changeFields_cons_of_ok htext hnew, Prod.mk.injEq] at h
        obtain ⟨others, hothers, rfl⟩ := exceptMap_eq_ok_iff.1 h.1
        rw [ih (Prod.ext hothers h.2), countTexts_insert htext]
        rfl

/-- The changes before the one that fails have been made, at the places with the name of a text. -/
theorem exists_of_changeFields_eq_error {e : ε} (h : changeFields change names r = (.error e, s)) :
    ∃ i, ∃ hi : i < names.length, ∃ count old,
      changeFields change (names.take i) r = (.ok count, s) ∧
        textAt? s names[i] = some old ∧ change i old = .error e := by
  induction names generalizing change r with
  | nil => cases congrArg Prod.fst h
  | cons name names ih =>
    cases htext : textAt? r name with
    | none =>
      rw [changeFields_cons_of_none htext] at h
      obtain ⟨i, hi, count, old, hbefore, hold, hfails⟩ := ih h
      refine ⟨i + 1, Nat.succ_lt_succ hi, count, old, ?_, hold, hfails⟩
      rw [List.take_succ_cons, changeFields_cons_of_none htext, hbefore]
    | some old =>
      cases hnew : change 0 old with
      | error e' =>
        rw [changeFields_cons_of_error htext hnew, Prod.mk.injEq] at h
        obtain ⟨he, rfl⟩ := h
        obtain rfl := Except.error.inj he
        exact ⟨0, Nat.succ_pos _, 0, old, rfl, htext, hnew⟩
      | ok new =>
        rw [changeFields_cons_of_ok htext hnew, Prod.mk.injEq, exceptMap_eq_error_iff] at h
        obtain ⟨i, hi, count, text, hbefore, htext', hfails⟩ := ih (Prod.ext h.1 h.2)
        refine ⟨i + 1, Nat.succ_lt_succ hi, count + 1, text, ?_, htext', hfails⟩
        rw [List.take_succ_cons, changeFields_cons_of_ok htext hnew, hbefore]
        rfl

/-- A run fails where it comes to a text of which the change fails, and leaves the record as it is
then. -/
theorem changeFields_eq_error_iff {e : ε} :
    changeFields change names r = (.error e, s) ↔
      ∃ i, ∃ hi : i < names.length, ∃ old,
        changeFields change (names.take i) r = (.ok (countTexts r (names.take i)), s) ∧
          s.get? names[i] = some (.text old) ∧ change i old = .error e := by
  constructor
  · intro h
    obtain ⟨i, hi, count, old, hbefore, hold, hfails⟩ := exists_of_changeFields_eq_error h
    refine ⟨i, hi, old, ?_, textAt?_eq_some_iff.1 hold, hfails⟩
    rw [hbefore, eq_countTexts_of_changeFields hbefore]
  · rintro ⟨i, hi, old, hbefore, hold, hfails⟩
    -- the rest of the run stops at once at its first place
    have hstop : changeFields (fun j => change (j + (names.take i).length)) (names.drop i) s =
        (.error e, s) := by
      rw [List.drop_eq_getElem_cons hi]
      refine changeFields_cons_of_error (textAt?_eq_some_iff.2 hold) ?_
      rwa [Nat.zero_add, List.length_take_of_le (Nat.le_of_lt hi)]
    rw [← List.take_append_drop i names, changeFields_append, hbefore]
    dsimp only
    rw [hstop]
    rfl

end

/-! ### Storing and recovering -/

variable {secret : String} {mode : CipherMode} {e : Encryptor}

/-- Storing fields succeeds if no text gets too long for the mode. -/
theorem exists_encryptFields (he : MadeOf secret mode e) (nonces : Nat → Nonce)
    {names : List String} {r : Record} (hfits : mode = .sealed → Fits [] names r) :
    ∃ s, e.encryptFields nonces names r = (.ok (countTexts r names), s) := by
  cases mode with
  | deterministic =>
    obtain ⟨s, hrun, -⟩ := exists_encryptFields_deterministic he nonces names r
    exact ⟨s, hrun⟩
  | sealed =>
    obtain ⟨s, hrun, -⟩ := exists_encryptFields_sealed he nonces (hfits rfl)
    exact ⟨s, hrun⟩

/-- A value that is not stored is too long for the sealed mode. -/
theorem of_encrypt_eq_error (he : MadeOf secret mode e) {nonce : Nonce} {text : String}
    {fault : ProtectionError} (h : e.encrypt nonce text = .error fault) :
    mode = .sealed ∧ fault = .tooLong ∧ SealedBox.fits (Text.utf8 text).length = false := by
  obtain ⟨-, rfl⟩ | ⟨hmode, key, rfl⟩ := he.keys
  · cases h
  · change Sealed.encrypt key nonce text = _ at h
    rw [Sealed.encrypt] at h
    -- neither the empty text nor a box that closes is an error
    split at h
    next => cases h
    next =>
      split at h
      next => cases h
      next hclose =>
        refine ⟨hmode, (Except.error.inj h).symm, Bool.eq_false_iff.2 fun hfits => ?_⟩
        rw [SealedBox.close?, if_pos hfits] at hclose
        cases hclose

/-- What is wrong when a value is not recovered is the value, as far as the encryptor can tell. -/
theorem exists_recovery_of_decrypt {value : String} {fault : ProtectionError}
    (h : e.decrypt value = .error fault) : ∃ cause, fault = .recovery cause := by
  obtain ⟨cause, -, hcause⟩ := mapError_eq_error_iff.1 h
  exact ⟨cause, hcause.symm⟩

/-- Storing fields succeeds if no text gets too long for the mode, and it fails only where one has
got too long to be sealed.  Recovering them fails exactly if there is a place in the list before
which all goes well, and of which the name is then that of a value that cannot be recovered: this is
the failure, and the record is left as it has come to this place.  What succeeds has gone through
every place with the name of a text, and has left alone what is not named and what is no text. -/
theorem encryptFields_decryptFields_outcome (he : MadeOf secret mode e) (names : List String)
    (r : Record) :
    ((mode = .sealed → Fits [] names r) → ∀ nonces, ∃ s,
      e.encryptFields nonces names r = (.ok (countTexts r names), s) ∧ Untouched names r s) ∧
    (∀ nonces fault s, e.encryptFields nonces names r = (.error fault, s) →
      mode = .sealed ∧ fault = .tooLong ∧ ∃ i, ∃ hi : i < names.length, ∃ text,
        e.encryptFields nonces (names.take i) r = (.ok (countTexts r (names.take i)), s) ∧
          s.get? names[i] = some (.text text) ∧
            SealedBox.fits (Text.utf8 text).length = false) ∧
    (∀ fault s, e.decryptFields names r = (.error fault, s) ↔
      ∃ i, ∃ hi : i < names.length, ∃ value,
        e.decryptFields (names.take i) r = (.ok (countTexts r (names.take i)), s) ∧
          s.get? names[i] = some (.text value) ∧ e.decrypt value = .error fault) ∧
    (∀ fault s, e.decryptFields names r = (.error fault, s) → ∃ cause, fault = .recovery cause) ∧
    ∀ count s, e.decryptFields names r = (.ok count, s) →
      count = countTexts r names ∧ Untouched names r s := by
  refine ⟨?_, ?_, fun _ _ => changeFields_eq_error_iff, ?_, ?_⟩
  · intro hfits nonces
    obtain ⟨s, hrun⟩ := exists_encryptFields he nonces hfits
    have hrest := untouched_changeFields (fun i => e.encrypt (nonces i)) names r
    rw [← encryptFields, hrun] at hrest
    exact ⟨s, hrun, hrest⟩
  · intro nonces fault s hrun
    obtain ⟨i, hi, text, hbefore, htext, hfails⟩ := changeFields_eq_error_iff.1 hrun
    obtain ⟨hmode, hfault, hlong⟩ := of_encrypt_eq_error he hfails
    exact ⟨hmode, hfault, i, hi, text, hbefore, htext, hlong⟩
  · intro fault s hrun
    obtain ⟨_, _, _, _, _, hfails⟩ := changeFields_eq_error_iff.1 hrun
    exact exists_recovery_of_decrypt hfails
  · intro count s hrun
    have hrest := untouched_changeFields (fun _ => e.decrypt) names r
    rw [← decryptFields, hrun] at hrest
    exact ⟨eq_countTexts_of_changeFields hrun, hrest⟩

/-- A text that looks as if it were sealed is sealed twice if it is named twice.  Its deterministic
value is recovered where it is named first, and the text itself is refused where it is named
again. -/
theorem encryptFields_decryptFields_outcome_namedAgain :
    (∃ e s, MadeOf "field secret" .sealed e ∧ Fits [] ["note", "lost", "note"] sampleRecord ∧
      e.encryptFields .ofNat ["note", "lost", "note"] sampleRecord = (.ok 2, s)) ∧
    MadeOf "field secret" .deterministic (deterministic "field secret") ∧
      ∃ value stored s,
        (deterministic "field secret").decrypt value = .ok "s1:é" ∧
        stored = sampleRecord.insert "note" (.text value) ∧
        (deterministic "field secret").decryptFields ["lost", "note", "amount"] stored =
          (.ok 1, s) ∧
        s.get? "note" = some (.text "s1:é") ∧
        (deterministic "field secret").decryptFields ["lost", "note", "amount", "note"] stored =
          (.error (.recovery .noSealedKey), s) := by
  obtain ⟨e, he⟩ : ∃ e, Encryptor.sealed "field secret" "field salt" {} = .ok e := ⟨_, rfl⟩
  have hfits : Fits [] ["note", "lost", "note"] sampleRecord := by
    intro name text htext
    rw [textAt?_sampleRecord] at htext
    split at htext
    next hname =>
      subst hname
      obtain rfl := Option.some.inj htext
      decide
    next => cases htext
  obtain ⟨boxed, hboxed, -⟩ := (encryptFields_decryptFields_outcome (.sealed he)
    ["note", "lost", "note"] sampleRecord).1 (fun _ => hfits) .ofNat
  have htwo : countTexts sampleRecord ["note", "lost", "note"] = 2 := by
    simp only [countTexts, textAt?_sampleRecord]
    decide
  have hd : MadeOf "field secret" .deterministic (deterministic "field secret") := .deterministic
  have hrefused : (deterministic "field secret").decrypt "s1:é" =
      .error (.recovery .noSealedKey) :=
    decrypt_of_isSealed_of_sealedKey_eq_none (by decide) rfl
  obtain ⟨value, hvalue⟩ : ∃ value, (deterministic "field secret").decrypt value = .ok "s1:é" :=
    ⟨_, decrypt_deterministic_encrypt _ "s1:é"⟩
  obtain ⟨stored, hstored⟩ : ∃ stored, stored = sampleRecord.insert "note" (.text value) :=
    ⟨_, rfl⟩
  have htexts (name : String) :
      textAt? stored name = if "note" = name then some value else none := by
    rw [hstored, textAt?_insert, textAt?_sampleRecord]
    split <;> rfl
  have hnote : textAt? (stored.insert "note" (.text "s1:é")) "note" = some "s1:é" := by
    rw [textAt?_insert, if_pos rfl]
  have hamount : textAt? (stored.insert "note" (.text "s1:é")) "amount" = none := by
    rw [textAt?_insert, if_neg (by decide), htexts, if_neg (by decide)]
  have hbefore : (deterministic "field secret").decryptFields ["lost", "note", "amount"] stored =
      (.ok 1, stored.insert "note" (.text "s1:é")) := by
    rw [decryptFields, changeFields_cons_of_none ((htexts "lost").trans (if_neg (by decide))),
      changeFields_cons_of_ok ((htexts "note").trans (if_pos rfl)) hvalue,
      changeFields_cons_of_none hamount]
    rfl
  have hcount : countTexts stored ["lost", "note", "amount"] = 1 :=
    (eq_countTexts_of_changeFields hbefore).symm
  refine ⟨⟨e, boxed, .sealed he, hfits, by rw [hboxed, htwo]⟩, hd, value, stored, _, hvalue,
    hstored, hbefore, textAt?_eq_some_iff.1 hnote, ?_⟩
  refine ((encryptFields_decryptFields_outcome hd ["lost", "note", "amount", "note"] stored).2.2.1
    _ _).2 ⟨3, by decide, "s1:é", ?_, textAt?_eq_some_iff.1 hnote, hrefused⟩
  change (deterministic "field secret").decryptFields ["lost", "note", "amount"] stored =
    (.ok (countTexts stored ["lost", "note", "amount"]), _)
  rw [hcount, hbefore]

end TrustBoundary.Encryptor

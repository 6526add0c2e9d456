import Mathlib.Logic.Function.Iterate
import TrustBoundary.Proofs.Protection.FieldChanges
import TrustBoundary.Proofs.Protection.RoundTrip
import TrustBoundary.Proofs.Protection.StoredSize

/-!
# Records are recovered, also when they have gone over from one mode to the other

A field that is named more than once is stored more than once: what is stored is stored again, first
in the deterministic mode and then sealed.  Recovering it as often takes these layers off from the
outside (`exists_chain_encrypt`), and since every field has its own changes only, the order in which
the fields are recovered does not matter (`migration_round_trip`).
-/

namespace TrustBoundary.Encryptor

/-! ### Layers -/

/-- A text that is stored under one nonce after the other comes back when it is recovered as
often. Its size decides whether it can be stored, and what size it has then. -/
theorem exists_chain_encrypt {e d : Encryptor} (ok : Nat → Prop) {size : Nat → Nat}
    (hstep : ∀ nonce text, ok (Text.utf8 text).length →
      ∃ value, e.encrypt nonce text = .ok value ∧ d.decrypt value = .ok text ∧
        (Text.utf8 value).length = size (Text.utf8 text).length)
    (nonces : List Nonce) (text : String)
    (hok : ∀ depth < nonces.length, ok (size^[depth] (Text.utf8 text).length)) :
    ∃ value, chain (nonces.map e.encrypt) text = .ok value ∧
      chain (List.replicate nonces.length d.decrypt) value = .ok text ∧
      (Text.utf8 value).length = size^[nonces.length] (Text.utf8 text).length := by
  induction nonces generalizing text with
  | nil => exact ⟨text, rfl, rfl, rfl⟩
  | cons nonce nonces ih =>
    obtain ⟨inner, hinner, hread, hsize⟩ := hstep nonce text (hok 0 (Nat.succ_pos _))
    obtain ⟨value, hvalue, hback, hlength⟩ := ih inner fun depth hdepth => by
      rw [hsize]
      exact hok (depth + 1) (Nat.succ_lt_succ hdepth)
    refine ⟨value, ?_, ?_, ?_⟩
    · rw [List.map_cons, chain, hinner]
      exact hvalue
    · -- the layer put on first is taken off last
      rw [List.length_cons, List.replicate_succ', chain_append, hback]
      show chain [d.decrypt] inner = .ok text
      rw [chain, hread]
      rfl
    · rw [hlength, hsize]
      rfl

section

variable {secret : String} {e₁ e₂ d : Encryptor} {mode : CipherMode}

/-- Layers of the deterministic mode come off with every encryptor of the secret. -/
theorem exists_chain_deterministic (h₁ : MadeOf secret .deterministic e₁)
    (hd : MadeOf secret mode d) (nonces : List Nonce) (text : String) :
    ∃ value, chain (nonces.map e₁.encrypt) text = .ok value ∧
      chain (List.replicate nonces.length d.decrypt) value = .ok text ∧
      (Text.utf8 value).length =
        Deterministic.storedSize^[nonces.length] (Text.utf8 text).length := by
  refine exists_chain_encrypt (fun _ => True) (fun nonce text _ => ?_) nonces text
    fun _ _ => trivial
  obtain ⟨-, rfl⟩ | ⟨hmode, -⟩ := h₁.keys
  · have hread := decrypt_deterministic_encrypt d text
    rw [hd.fieldKey_eq] at hread
    exact ⟨_, rfl, hread, Deterministic.length_utf8_encrypt _ text⟩
  · -- no encryptor of this mode has a sealed key
    cases hmode

/-- Sealed layers come off with the encryptor that has put them on. -/
theorem exists_chain_sealed (h₂ : MadeOf secret .sealed e₂) (nonces : List Nonce) (text : String)
    (hfits : ∀ depth < nonces.length,
      SealedBox.fits (Sealed.storedSize^[depth] (Text.utf8 text).length) = true) :
    ∃ value, chain (nonces.map e₂.encrypt) text = .ok value ∧
      chain (List.replicate nonces.length e₂.decrypt) value = .ok text ∧
      (Text.utf8 value).length = Sealed.storedSize^[nonces.length] (Text.utf8 text).length := by
  refine exists_chain_encrypt (fun size => SealedBox.fits size = true)
    (fun nonce text hsize => ?_) nonces text hfits
  obtain ⟨hmode, -⟩ | ⟨-, key, rfl⟩ := h₂.keys
  · cases hmode
  · obtain ⟨value, hvalue⟩ := Sealed.exists_encrypt key nonce hsize
    exact ⟨value, hvalue, decrypt_of_sealed_encrypt rfl hvalue,
      Sealed.length_utf8_of_encrypt hvalue⟩

end

/-! ### Records -/

/-- The changes that storing named fields makes to each of them. -/
def layersAt (e : Encryptor) (nonces : Nat → Nonce) (names : List String) (name : String) :
    List (String → Except ProtectionError String) :=
  (changesAt nonces names name).map e.encrypt

section

variable {e d : Encryptor} {r s : Record} {names : List String}

theorem exists_encryptFields_eq_ok {nonces : Nat → Nonce}
    (h : ∀ name old, textAt? r name = some old →
      ∃ new, chain (layersAt e nonces names name) old = .ok new) :
    ∃ s, e.encryptFields nonces names r = (.ok (countTexts r names), s) ∧
      Becomes (layersAt e nonces names) r s := by
  have hlayers : layersAt e nonces names = changesAt (fun i => e.encrypt (nonces i)) names :=
    funext fun name => map_changesAt e.encrypt nonces names name
  rw [hlayers] at h ⊢
  exact exists_changeFields_eq_ok h

/-- If recovering each text as often as it is named leads it back, then recovering the named fields
leads the record back. -/
theorem decryptFields_eq_ok {changes : String → List (String → Except ProtectionError String)}
    (hbecomes : Becomes changes r s)
    (hback : ∀ name old, textAt? r name = some old →
      chain (changes name ++ List.replicate (names.count name) d.decrypt) old = .ok old) :
    d.decryptFields names s = (.ok (countTexts r names), r) := by
  have hchanges : ∀ name, changesAt (fun _ => d.decrypt) names name =
      List.replicate (names.count name) d.decrypt := changesAt_const d.decrypt names
  have hsucceed : ∀ name new, textAt? s name = some new →
      ∃ last, chain (changesAt (fun _ => d.decrypt) names name) new = .ok last := by
    intro name new hnew
    obtain ⟨old, hold, hchain⟩ := hbecomes.exists_of_textAt? hnew
    have hlast := hback name old hold
    rw [chain_append, hchain] at hlast
    exact ⟨old, (hchanges name).symm ▸ hlast⟩
  obtain ⟨t, hrun, hrest⟩ := exists_changeFields_eq_ok hsucceed
  -- storing and then recovering leads each text back, and nothing else is touched
  have hsame : t = r := (hbecomes.trans hrest).eq_of_chain fun name old hold => by
    rw [hchanges]
    exact hback name old hold
  rw [decryptFields, hrun, hbecomes.countTexts_eq, hsame]

end

/-! ### From one mode to the other -/

/-- Whether no text of a record gets too long to be sealed when it is stored in the deterministic
mode as often as `plain` names it, and then sealed as often as `sealed` does. -/
def Fits (plain sealed : List String) (r : Record) : Prop :=
  ∀ name text, textAt? r name = some text → ∀ depth < sealed.count name,
    SealedBox.fits (Sealed.storedSize^[depth]
      (Deterministic.storedSize^[plain.count name] (Text.utf8 text).length)) = true

section

variable {secret : String} {e₁ e₂ : Encryptor} {r₁ : Record} {fs₂ : List String}

/-- Storing fields in the deterministic mode succeeds. Each text is then as long as `Fits` supposes,
and every encryptor of the secret takes its layers off. -/
theorem exists_encryptFields_deterministic (h₁ : MadeOf secret .deterministic e₁)
    (nonces : Nat → Nonce) (fs₁ : List String) (r : Record) :
    ∃ r₁, e₁.encryptFields nonces fs₁ r = (.ok (countTexts r fs₁), r₁) ∧
      Becomes (layersAt e₁ nonces fs₁) r r₁ ∧
      ∀ mode d, MadeOf secret mode d → ∀ name old mid,
        chain (layersAt e₁ nonces fs₁ name) old = .ok mid →
        chain (List.replicate (fs₁.count name) d.decrypt) mid = .ok old ∧
          (Text.utf8 mid).length =
            Deterministic.storedSize^[fs₁.count name] (Text.utf8 old).length := by
  have hlayers : ∀ mode d, MadeOf secret mode d → ∀ name old,
      ∃ mid, chain (layersAt e₁ nonces fs₁ name) old = .ok mid ∧
        chain (List.replicate (fs₁.count name) d.decrypt) mid = .ok old ∧
        (Text.utf8 mid).length =
          Deterministic.storedSize^[fs₁.count name] (Text.utf8 old).length := by
    intro mode d hd name old
    rw [← length_changesAt nonces]
    exact exists_chain_deterministic h₁ hd (changesAt nonces fs₁ name) old
  have hsucceed : ∀ name old, textAt? r name = some old →
      ∃ mid, chain (layersAt e₁ nonces fs₁ name) old = .ok mid := fun name old _ =>
    (hlayers _ e₁ h₁ name old).imp fun _ hmid => hmid.1
  obtain ⟨r₁, hrun, hbecomes⟩ := exists_encryptFields_eq_ok hsucceed
  refine ⟨r₁, hrun, hbecomes, fun mode d hd name old mid hmid => ?_⟩
  obtain ⟨mid', hmid', hback⟩ := hlayers mode d hd name old
  obtain rfl := Except.ok.inj (hmid.symm.trans hmid')
  exact hback

/-- Sealing fields succeeds if no text gets too long, and the encryptor takes its layers off. -/
theorem exists_encryptFields_sealed (h₂ : MadeOf secret .sealed e₂) (nonces : Nat → Nonce)
    (hfits : ∀ name mid, textAt? r₁ name = some mid → ∀ depth < fs₂.count name,
      SealedBox.fits (Sealed.storedSize^[depth] (Text.utf8 mid).length) = true) :
    ∃ r₂, e₂.encryptFields nonces fs₂ r₁ = (.ok (countTexts r₁ fs₂), r₂) ∧
      Becomes (layersAt e₂ nonces fs₂) r₁ r₂ ∧
      ∀ name mid, textAt? r₁ name = some mid →
        chain (layersAt e₂ nonces fs₂ name ++ List.replicate (fs₂.count name) e₂.decrypt) mid =
          .ok mid := by
  have hlayers : ∀ name mid, textAt? r₁ name = some mid →
      ∃ new, chain (layersAt e₂ nonces fs₂ name) mid = .ok new ∧
        chain (List.replicate (fs₂.count name) e₂.decrypt) new = .ok mid := by
    intro name mid hmid
    have hfits' := hfits name mid hmid
    rw [← length_changesAt nonces] at hfits' ⊢
    obtain ⟨new, hnew, hback, -⟩ := exists_chain_sealed h₂ (changesAt nonces fs₂ name) mid hfits'
    exact ⟨new, hnew, hback⟩
  -- each field has its own layers, so each succeeds by itself
  have hsucceed : ∀ name mid, textAt? r₁ name = some mid →
      ∃ new, chain (layersAt e₂ nonces fs₂ name) mid = .ok new := fun name mid hmid =>
    (hlayers name mid hmid).imp fun _ hnew => hnew.1
  obtain ⟨r₂, hrun, hbecomes⟩ := exists_encryptFields_eq_ok hsucceed
  refine ⟨r₂, hrun, hbecomes, fun name mid hmid => ?_⟩
  obtain ⟨new, hnew, hback⟩ := hlayers name mid hmid
  rw [chain_append, hnew]
  exact hback

end

/-- A record of which some fields have been stored in the deterministic mode, and then some fields
sealed, is recovered by the sealed encryptor, in whatever order the fields are named. A field may be
named more than once, and need not be there. If no field has been sealed, every encryptor of the
secret recovers the record. At every place of each of the three runs, the names are those of the
record, and so is whatever has not been named or is no text. -/
theorem migration_round_trip {secret : String} {e₁ e₂ : Encryptor}
    (h₁ : MadeOf secret .deterministic e₁) (h₂ : MadeOf secret .sealed e₂)
    (nonces₁ nonces₂ : Nat → Nonce) {r : Record} {fs₁ fs₂ order : List String}
    (horder : order.Perm (fs₁ ++ fs₂)) (hfits : Fits fs₁ fs₂ r) :
    ∃ r₁ r₂,
      e₁.encryptFields nonces₁ fs₁ r = (.ok (countTexts r fs₁), r₁) ∧
      e₂.encryptFields nonces₂ fs₂ r₁ = (.ok (countTexts r fs₂), r₂) ∧
      e₂.decryptFields order r₂ = (.ok (countTexts r order), r) ∧
      countTexts r order = countTexts r fs₁ + countTexts r fs₂ ∧
      (fs₂ = [] → ∀ mode d, MadeOf secret mode d →
        d.decryptFields order r₁ = (.ok (countTexts r order), r)) ∧
      (∀ part, part <+: fs₁ → Untouched part r (e₁.encryptFields nonces₁ part r).2) ∧
      (∀ part, part <+: fs₂ →
        Untouched (fs₁ ++ part) r (e₂.encryptFields nonces₂ part r₁).2) ∧
      ∀ part, part <+: order → Untouched (fs₁ ++ fs₂) r (e₂.decryptFields part r₂).2 := by
  obtain ⟨r₁, hrun₁, hbecomes₁, hread₁⟩ :=
    exists_encryptFields_deterministic h₁ nonces₁ fs₁ r
  have hfits₁ : ∀ name mid, textAt? r₁ name = some mid → ∀ depth < fs₂.count name,
      SealedBox.fits (Sealed.storedSize^[depth] (Text.utf8 mid).length) = true := by
    intro name mid hmid
    obtain ⟨old, hold, hchain⟩ := hbecomes₁.exists_of_textAt? hmid
    rw [(hread₁ _ e₂ h₂ name old mid hchain).2]
    exact hfits name old hold
  obtain ⟨r₂, hrun₂, hbecomes₂, hread₂⟩ := exists_encryptFields_sealed h₂ nonces₂ hfits₁
  have huntouched₁ : Untouched fs₁ r r₁ := by
    have h := untouched_changeFields (fun i => e₁.encrypt (nonces₁ i)) fs₁ r
    rwa [← encryptFields, hrun₁] at h
  have huntouched₂ : Untouched fs₂ r₁ r₂ := by
    have h := untouched_changeFields (fun i => e₂.encrypt (nonces₂ i)) fs₂ r₁
    rwa [← encryptFields, hrun₂] at h
  have hcount : ∀ name, order.count name = fs₂.count name + fs₁.count name := fun name => by
    rw [horder.count_eq, List.count_append, Nat.add_comm]
  refine ⟨r₁, r₂, hrun₁, ?_, ?_, ?_, ?_, ?_, ?_, ?_⟩
  · rw [hrun₂, hbecomes₁.countTexts_eq]
  · -- the sealed layers lie outside, so that they come off first
    refine decryptFields_eq_ok (hbecomes₁.trans hbecomes₂) fun name old hold => ?_
    obtain ⟨mid, hmid, htext⟩ := hbecomes₁.text name old hold
    rw [hcount, ← List.replicate_append_replicate, List.append_assoc,
      ← List.append_assoc (layersAt e₂ _ _ _), chain_append, hmid]
    show chain (_ ++ _) mid = .ok old
    rw [chain_append, hread₂ name mid htext]
    exact (hread₁ _ e₂ h₂ name old mid hmid).1
  · rw [countTexts, horder.countP_eq, List.countP_append]
    rfl
  · rintro rfl mode d hd
    refine decryptFields_eq_ok hbecomes₁ fun name old hold => ?_
    obtain ⟨mid, hmid, -⟩ := hbecomes₁.text name old hold
    rw [hcount, List.count_nil, Nat.zero_add, chain_append, hmid]
    exact (hread₁ mode d hd name old mid hmid).1
  · exact fun part _ => untouched_changeFields _ part r
  · exact fun part _ => huntouched₁.trans (untouched_changeFields _ part r₁)
  · intro part hpart
    refine ((huntouched₁.trans huntouched₂).trans (untouched_changeFields _ part r₂)).mono ?_
    exact List.append_subset.2 ⟨List.Subset.refl _, List.Subset.trans hpart.subset horder.subset⟩

/-- A record with a text, a number and a field that is empty. -/
def sampleRecord : Record :=
  ((Fields.empty.insert "note" (.text "s1:é")).insert "amount"
    (.number (.whole 5 (by decide)))).insert "gone" .null

theorem textAt?_sampleRecord (name : String) :
    textAt? sampleRecord name = if "note" = name then some "s1:é" else none := by
  simp only [textAt?, sampleRecord, Fields.get?_insert, Fields.get?_empty]
  by_cases hgone : "gone" = name
  · subst hgone
    rfl
  · by_cases hamount : "amount" = name
    · subst hamount
      rfl
    · rw [if_neg hgone, if_neg hamount]
      split <;> rfl

/-- A text that is stored twice in the deterministic mode and then sealed, among fields that are no
texts or are not there. -/
theorem migration_round_trip_sampleRecord :
    ∃ e, Encryptor.sealed "field secret" "field salt" {} = .ok e ∧
      ["lost", "note", "gone", "note", "amount", "note"].Perm
        (["note", "note", "lost", "amount"] ++ ["gone", "note"]) ∧
      Fits ["note", "note", "lost", "amount"] ["gone", "note"] sampleRecord ∧
      ∃ r₁ r₂,
        (deterministic "field secret").encryptFields .ofNat ["note", "note", "lost", "amount"]
          sampleRecord = (.ok 2, r₁) ∧
        e.encryptFields .ofNat ["gone", "note"] r₁ = (.ok 1, r₂) ∧
        e.decryptFields ["lost", "note", "gone", "note", "amount", "note"] r₂ =
          (.ok 3, sampleRecord) := by
  obtain ⟨e, he⟩ : ∃ e, Encryptor.sealed "field secret" "field salt" {} = .ok e := ⟨_, rfl⟩
  have horder : ["lost", "note", "gone", "note", "amount", "note"].Perm
      (["note", "note", "lost", "amount"] ++ ["gone", "note"]) := by decide
  have hfits : Fits ["note", "note", "lost", "amount"] ["gone", "note"] sampleRecord := by
    intro name text htext
    rw [textAt?_sampleRecord] at htext
    split at htext
    · rename_i hname
      subst hname
      obtain rfl := Option.some.inj htext
      decide
    · cases htext
  have hcounts : countTexts sampleRecord ["note", "note", "lost", "amount"] = 2 ∧
      countTexts sampleRecord ["gone", "note"] = 1 ∧
      countTexts sampleRecord ["lost", "note", "gone", "note", "amount", "note"] = 3 := by
    simp only [countTexts, textAt?_sampleRecord]
    decide
  obtain ⟨r₁, r₂, hplain, hsealed, hback, -⟩ :=
    migration_round_trip .deterministic (.sealed he) .ofNat .ofNat horder hfits
  rw [hcounts.1] at hplain
  rw [hcounts.2.1] at hsealed
  rw [hcounts.2.2] at hback
  exact ⟨e, he, horder, hfits, r₁, r₂, hplain, hsealed, hback⟩

end TrustBoundary.Encryptor

import Ket.Server.StateInvariant

/-!
# Grants in a batch (`ket-server/src/service.rs`, `create_grant_batch`)

The loop of `create_grant_batch` creates one grant after the other, and each is stored and current
before the next is tried.  What the service needs for the grant number `i` is known before the loop
begins (`Works`): room for the number in the label, a hash, a fresh code and a store.  When the first
grant can be created and a later one cannot, the earlier ones stay although the request fails
(`batch_keeps_earlier`); in every other case the batch is all or nothing (`batch_all_or_nothing_iff`).
-/

namespace Ket.Server

open Ket.Core Ket.Lib List

structure CreateAccessGrantBatchRequest where
  labelPrefix : String
  count : ℕ
  maxConnections : ℕ
  validForMinutes : ℕ
  protocols : ProtocolAccess
  allowance : Option DataAllowance

/-- The request for the grant number `index`. -/
def CreateAccessGrantBatchRequest.member (request : CreateAccessGrantBatchRequest)
    (labelPrefix : String) (index : ℕ) : CreateAccessGrantRequest :=
  ⟨labelPrefix ++ "-" ++ toString index, request.maxConnections, request.validForMinutes,
    request.protocols, request.allowance⟩

/-- What one `create_grant` of the loop meets: the time, the generated code, the hash of its secret or
why there is none, and what becomes of the store. -/
structure Attempt where
  now : ℕ
  code : String
  hash : Except ServiceError String
  store : StoreOutcome

namespace Node

variable (C : Crypto) (cfg : Config)

/-- `create_grant`, which checks the request before it hashes the secret. -/
def tryCreateGrant (n : Node) (request : CreateAccessGrantRequest) (attempt : Attempt) :
    Node × Except ServiceError CreateAccessGrantResponse :=
  match attempt.hash with
  | .ok secretHash => n.createGrant C cfg request attempt.now attempt.code secretHash attempt.store
  | .error e =>
    match newGrant cfg request attempt.now attempt.code "" with
    | .error e' => (n, .error e')
    | .ok _ => (n, .error e)

/-- The loop of `create_grant_batch`, with so many grants still to create. -/
def createGrants (request : CreateAccessGrantBatchRequest) (labelPrefix : String)
    (attempts : ℕ → Attempt) :
    ℕ → ℕ → Node → Node × Except ServiceError (List CreateAccessGrantResponse)
  | 0, _, n => (n, .ok [])
  | remaining + 1, index, n =>
    match n.tryCreateGrant C cfg (request.member labelPrefix index) (attempts index) with
    | (n, .error e) => (n, .error e)
    | (n, .ok grant) =>
      match createGrants request labelPrefix attempts remaining (index + 1) n with
      | (n, .error e) => (n, .error e)
      | (n, .ok grants) => (n, .ok (grant :: grants))

/-- `create_grant_batch`. -/
def createGrantBatch (n : Node) (request : CreateAccessGrantBatchRequest)
    (attempts : ℕ → Attempt) : Node × Except ServiceError (List CreateAccessGrantResponse) :=
  if request.count = 0 ∨ 100 < request.count then
    (n, .error (.invalidInput "count must be between 1 and 100"))
  else
    match validateText request.labelPrefix "label_prefix" maxLabelLength with
    | .error e => (n, .error e)
    | .ok labelPrefix => createGrants C cfg request labelPrefix attempts request.count 1 n

end Node

/-! ### One grant -/

variable {C : Crypto} {cfg : Config}

variable {code secretHash : String} {now : ℕ} {record : AccessGrantRecord}
  {request : CreateAccessGrantRequest} {parts : TokenParts} {s : PersistedState}

lemma validateText_eq_ok {value field : String} {maximum : ℕ} {text : String} :
    validateText value field maximum = .ok text ↔
      text = Str.trim value ∧ text ≠ "" ∧ Str.len text ≤ maximum ∧
        text.toList.any Str.isControl = false := by
  unfold validateText
  rw [require_bind_eq_ok, Bool.and_eq_true, Bool.and_eq_true, decide_eq_true_iff,
    decide_eq_true_iff, Bool.not_eq_true']
  constructor
  · rintro ⟨⟨⟨hne, hlen⟩, hcontrol⟩, h⟩
    cases h
    exact ⟨rfl, hne, hlen, hcontrol⟩
  · rintro ⟨rfl, hne, hlen, hcontrol⟩
    exact ⟨⟨⟨hne, hlen⟩, hcontrol⟩, rfl⟩

/-- The numbers of a batch are written in visible characters. -/
lemma graphic_index {index : ℕ} (h : index ≤ 100) :
    (toString index).toList ≠ [] ∧ (toString index).toList.all Str.isGraphic = true := by
  have hall : ∀ i ∈ List.range 101,
      (toString i).toList ≠ [] ∧ (toString i).toList.all Str.isGraphic = true := by decide +kernel
  exact hall index (mem_range.mpr (Nat.lt_succ_of_le h))

lemma toList_label (labelPrefix : String) (index : ℕ) :
    (labelPrefix ++ "-" ++ toString index).toList
      = labelPrefix.toList ++ '-' :: (toString index).toList := by
  rw [String.toList_append, String.toList_append, append_assoc]
  rfl

section Label

variable {value labelPrefix field : String} {maximum index : ℕ}
  (hpre : validateText value field maximum = .ok labelPrefix) (hindex : index ≤ 100)
include hpre hindex

/-- A prefix without blanks at its ends gives labels without. -/
lemma trim_label : Str.trim (labelPrefix ++ "-" ++ toString index)
    = labelPrefix ++ "-" ++ toString index := by
  obtain ⟨hne, hgraphic⟩ := graphic_index hindex
  obtain ⟨htrim, hprene, -, -⟩ := validateText_eq_ok.mp hpre
  refine String.toList_inj.mp ?_
  rw [Str.toList_trim, toList_label]
  refine Str.trimBy_eq_self ?_ ?_
  · intro c hc
    cases hlist : labelPrefix.toList with
    | nil => exact absurd (String.toList_inj.mp hlist) hprene
    | cons a rest =>
      rw [hlist, cons_append, head?_cons] at hc
      refine Str.head?_trimBy (l := value.toList) ?_
      rw [← Str.toList_trim, ← htrim, hlist]
      exact hc
  · intro c hc
    have hlast : c ∈ (toString index).toList := by
      rw [getLast?_append_of_ne_nil _ (cons_ne_nil _ _),
        getLast?_cons_of_ne_nil hne] at hc
      exact mem_of_getLast? hc
    exact Str.isWhitespace_of_isGraphic (all_eq_true.mp hgraphic c hlast)

lemma control_label : (labelPrefix ++ "-" ++ toString index).toList.any Str.isControl = false := by
  obtain ⟨-, -, -, hcontrol⟩ := validateText_eq_ok.mp hpre
  obtain ⟨-, hgraphic⟩ := graphic_index hindex
  have hdigits : (toString index).toList.any Str.isControl = false := by
    refine any_eq_false.mpr fun c hc => ?_
    rw [Str.isControl_of_isGraphic (all_eq_true.mp hgraphic c hc)]
    exact Bool.false_ne_true
  rw [toList_label, any_append, hcontrol, any_cons, hdigits]
  rfl

/-- Of a label only its length is in question. -/
lemma validateText_label {label : String} :
    validateText (labelPrefix ++ "-" ++ toString index) "label" maxLabelLength = .ok label ↔
      label = labelPrefix ++ "-" ++ toString index ∧
        Str.len (labelPrefix ++ "-" ++ toString index) ≤ maxLabelLength := by
  have hne : labelPrefix ++ "-" ++ toString index ≠ "" := by
    intro hempty
    have hlist := congrArg String.toList hempty
    rw [toList_label] at hlist
    exact append_ne_nil_of_right_ne_nil _ (cons_ne_nil _ _) hlist
  rw [validateText_eq_ok, trim_label hpre hindex]
  constructor
  · rintro ⟨rfl, -, hlen, -⟩
    exact ⟨rfl, hlen⟩
  · rintro ⟨rfl, hlen⟩
    exact ⟨rfl, hne, hlen, control_label hpre hindex⟩

end Label

/-! ### The check of the new record -/

lemma validIdentifier_of_splitAccessCode (h : splitAccessCode code = some parts) :
    validIdentifier parts.id accessIdLength = true := by
  obtain ⟨⟨hlength, halnum⟩, rfl⟩ := of_guard h
  have hall : ∀ c ∈ code.toList, c.isAlphanum = true := all_eq_true.mp halnum
  have htake : ∀ c ∈ code.toList.take accessIdLength, c.isAlphanum = true :=
    fun c hc => hall c (mem_of_mem_take hc)
  rw [Str.len_of_ascii fun c hc => Str.lt_of_isAlphanum (hall c hc)] at hlength
  rw [validIdentifier, Str.allAsciiAlphanumeric, String.toList_ofList, Bool.and_eq_true,
    decide_eq_true_iff, Str.len_of_ascii, String.toList_ofList, length_take, hlength]
  · exact ⟨rfl, all_eq_true.mpr htake⟩
  · intro c hc
    rw [String.toList_ofList] at hc
    exact Str.lt_of_isAlphanum (htake c hc)

/-- Once its request has passed, what the store asks of a new record is about its hash and its
time. -/
lemma wellFormed_newGrant (htrim : Str.trim request.label = request.label)
    (h : newGrant cfg request now code secretHash = .ok record) :
    record.WellFormed C ↔ validText secretHash maxSecretHashLength = true ∧
      C.isSupportedSecretHash secretHash = true ∧ now < u64Max := by
  obtain ⟨label, parts, hlabel, hlimits, hcode, rfl⟩ := newGrant_eq_ok.mp h
  obtain ⟨rfl, hne, hlen, hcontrol⟩ := validateText_eq_ok.mp hlabel
  have htext : validText (Str.trim request.label) maxLabelLength = true := by
    rw [htrim] at hne hlen hcontrol ⊢
    simp only [validText, htrim, hcontrol, decide_eq_true hne, decide_eq_true hlen, Bool.and_self,
      decide_true, Bool.not_false]
  have hexpiry : now < saturatingAdd now (request.validForMinutes * 60) ↔ now < u64Max := by
    have hminutes := hlimits.validForMinutes.1
    unfold saturatingAdd
    omega
  have hsince : (!((request.allowance.map fun _ => now).isSome && request.allowance.isNone)) = true := by
    cases request.allowance <;> rfl
  simp only [AccessGrantRecord.WellFormed, AccessGrantRecord.validate, require_bind_eq_ok,
    require_eq_ok, validIdentifier_of_splitAccessCode hcode, htext, hlimits.protocols,
    hlimits.allowance, decide_eq_true hlimits.maxConnections.1, Option.isSome_none, Bool.false_or,
    hsince, Option.all_some, decide_eq_true_iff, hexpiry, contains_nil, Bool.not_false,
    true_and]

/-- A state that can be stored can be stored with one more grant when the record is well formed and its
ID is new. -/
lemma isStorable_withGrant (hs : isStorable C s = true) (hfresh : ∀ g ∈ s.grants, g.id ≠ record.id)
    : isStorable C (withGrant s record) = true ↔ record.WellFormed C := by
  obtain ⟨hschema, hvalid⟩ := isStorable_eq_true.mp hs
  rw [isStorable_eq_true]
  constructor
  · rintro ⟨-, h⟩
    exact h.grants record (mem_append_right _ (mem_singleton_self record))
  · intro hrecord
    refine ⟨hschema, ?_, ?_, ?_, hvalid.sessionIds, hvalid.slots⟩
    · intro g hg
      rcases mem_append.mp hg with hg | hg
      · exact hvalid.grants g hg
      · rwa [mem_singleton.mp hg]
    · rw [withGrant, map_append, nodup_append]
      refine ⟨hvalid.grantIds, nodup_singleton _, ?_⟩
      rintro id hid id' hid' rfl
      obtain ⟨g, hg, rfl⟩ := mem_map.mp hid
      exact hfresh g hg (mem_singleton.mp hid')
    · intro x hx
      -- the grant of a session is found where it was
      refine (hvalid.sessions x hx).congr ?_
      obtain ⟨g, hfind, -⟩ := (hvalid.sessions x hx).grant
      rw [withGrant, find?_append, hfind]
      rfl

/-! ### What a grant of the batch needs -/

/-- What the service needs to create the grant number `i`, after those from the number `first` on, in a
state with the grants `base`. -/
structure Works (C : Crypto) (request : CreateAccessGrantBatchRequest) (attempts : ℕ → Attempt)
    (base : List AccessGrantRecord) (first i : ℕ) : Prop where
  label : Str.len (Str.trim request.labelPrefix ++ "-" ++ toString i) ≤ maxLabelLength
  time : (attempts i).now < u64Max
  hash : ∃ hash, (attempts i).hash = .ok hash ∧ validText hash maxSecretHashLength = true ∧
    C.isSupportedSecretHash hash = true
  code : ∃ parts, splitAccessCode (attempts i).code = some parts ∧
    (∀ g ∈ base, g.id ≠ parts.id) ∧ ∀ j, first ≤ j → j < i →
      ∀ other, splitAccessCode (attempts j).code = some other → other.id ≠ parts.id
  store : (attempts i).store = .stored

/-- After the first grant, the others need what they needed before. -/
lemma works_after {request : CreateAccessGrantBatchRequest} {attempts : ℕ → Attempt}
    {base : List AccessGrantRecord} {first i : ℕ}
    (hcode : splitAccessCode (attempts first).code = some parts) (hid : record.id = parts.id)
    (hi : first < i) : Works C request attempts (base ++ [record]) (first + 1) i ↔
      Works C request attempts base first i := by
  constructor
  · rintro ⟨hlabel, htime, hhash, ⟨own, hown, hbase, hothers⟩, hstore⟩
    refine ⟨hlabel, htime, hhash, ⟨own, hown, ?_, ?_⟩, hstore⟩
    · exact fun g hg => hbase g (mem_append_left _ hg)
    · intro j hj hji other hother
      rcases Nat.eq_or_lt_of_le hj with rfl | hlt
      · rw [hcode] at hother
        cases hother
        exact hid ▸ hbase record (mem_append_right _ (mem_singleton_self record))
      · exact hothers j hlt hji other hother
  · rintro ⟨hlabel, htime, hhash, ⟨own, hown, hbase, hothers⟩, hstore⟩
    refine ⟨hlabel, htime, hhash, ⟨own, hown, ?_, ?_⟩, hstore⟩
    · intro g hg
      rcases mem_append.mp hg with hg | hg
      · exact hbase g hg
      · rw [mem_singleton.mp hg, hid]
        exact hothers first le_rfl hi parts hcode
    · exact fun j hj => hothers j (Nat.le_of_succ_le hj)

section Try

variable {n : Node} {request : CreateAccessGrantRequest} {attempt : Attempt}
  {response : CreateAccessGrantResponse} {e : ServiceError}

lemma tryCreateGrant_eq_ok : (n.tryCreateGrant C cfg request attempt).2 = .ok response ↔
      ∃ hash record, attempt.hash = .ok hash ∧
        newGrant cfg request attempt.now attempt.code hash = .ok record ∧
        (∀ g ∈ n.state.grants, g.id ≠ record.id) ∧
        Node.stores C (withGrant n.state record) attempt.store = true ∧
        response = ⟨record.id, attempt.code, record.label, request.maxConnections,
          request.validForMinutes, saturatingAdd attempt.now (request.validForMinutes * 60),
          attempt.now, request.protocols, request.allowance⟩ := by
  unfold Node.tryCreateGrant
  cases hhash : attempt.hash with
  | error e =>
    cases newGrant cfg request attempt.now attempt.code "" <;> simp
  | ok hash =>
    simp only [Node.createGrant, Node.transact_eq_ok, createGrant_eq_ok, Except.ok.injEq]
    constructor
    · rintro ⟨next, ⟨record, hrecord, hfresh, rfl, hresponse⟩, hstores⟩
      exact ⟨hash, record, rfl, hrecord, hfresh, hstores, hresponse⟩
    · rintro ⟨hash', record, rfl, hrecord, hfresh, hstores, hresponse⟩
      exact ⟨_, ⟨record, hrecord, hfresh, rfl, hresponse⟩, hstores⟩

/-- A grant that is created is stored and current. -/
lemma tryCreateGrant_of_ok (h : (n.tryCreateGrant C cfg request attempt).2 = .ok response) :
    ∃ record parts, splitAccessCode attempt.code = some parts ∧ record.id = parts.id ∧
      response.id = record.id ∧ isStorable C (withGrant n.state record) = true ∧
      n.tryCreateGrant C cfg request attempt = ({ n with
        state := withGrant n.state record, file := withGrant n.state record }, .ok response) := by
  obtain ⟨hash, record, hhash, hrecord, hfresh, hstores, rfl⟩ := tryCreateGrant_eq_ok.mp h
  obtain ⟨label, parts, -, -, hcode, hfields⟩ := newGrant_eq_ok.mp hrecord
  refine ⟨record, parts, hcode, by rw [hfields], rfl, (Bool.and_eq_true_iff.mp hstores).1, ?_⟩
  have hcreate := (createGrant_eq_ok (s := n.state)).mpr ⟨record, hrecord, hfresh, rfl, rfl⟩
  simp only [Node.tryCreateGrant, hhash, Node.createGrant, hcreate, Node.transact_of_stores hstores]

lemma tryCreateGrant_of_error (ho : attempt.store ≠ .replaced)
    (h : (n.tryCreateGrant C cfg request attempt).2 = .error e) :
    n.tryCreateGrant C cfg request attempt = (n, .error e) := by
  refine Prod.ext ?_ h
  unfold Node.tryCreateGrant at h ⊢
  cases hhash : attempt.hash with
  | error e => cases newGrant cfg request attempt.now attempt.code "" <;> rfl
  | ok hash =>
    rw [hhash] at h
    exact Node.transact_of_error ho h

end Try

section Loop

variable {n : Node} {request : CreateAccessGrantBatchRequest} {labelPrefix : String}
  {attempts : ℕ → Attempt}
  (hpre : validateText request.labelPrefix "label_prefix" maxLabelLength = .ok labelPrefix)
  (hlimits : WithinLimits cfg request.maxConnections request.validForMinutes request.protocols
    request.allowance)
include hpre hlimits

/-- In a state that can be stored, a grant is created exactly when it has what it needs. -/
lemma exists_tryCreateGrant_iff (hs : isStorable C n.state = true) {i : ℕ} (hi : i ≤ 100) :
    (∃ response, (n.tryCreateGrant C cfg (request.member labelPrefix i) (attempts i)).2
        = .ok response) ↔ Works C request attempts n.state.grants i i := by
  obtain ⟨htrim, -, -, -⟩ := validateText_eq_ok.mp hpre
  have hlabelTrim : Str.trim (request.member labelPrefix i).label
      = (request.member labelPrefix i).label := trim_label hpre hi
  simp only [tryCreateGrant_eq_ok]
  constructor
  · rintro ⟨-, hash, record, hhash, hrecord, hfresh, hstores, -⟩
    obtain ⟨label, parts, hlabel, -, hcode, hfields⟩ := newGrant_eq_ok.mp hrecord
    obtain ⟨-, hlen⟩ := (validateText_label hpre hi).mp hlabel
    obtain ⟨hstorable, hstored⟩ := Bool.and_eq_true_iff.mp hstores
    obtain ⟨hvalid, hsupported, htime⟩ := (wellFormed_newGrant hlabelTrim hrecord).mp
      ((isStorable_withGrant hs hfresh).mp hstorable)
    have hid : record.id = parts.id := by rw [hfields]
    exact ⟨htrim ▸ hlen, htime, ⟨hash, hhash, hvalid, hsupported⟩,
      ⟨parts, hcode, fun g hg => hid ▸ hfresh g hg, fun j hj hji => absurd hji (Nat.not_lt.mpr hj)⟩,
      of_decide_eq_true hstored⟩
  · rintro ⟨hlen, htime, ⟨hash, hhash, hvalid, hsupported⟩, ⟨parts, hcode, hfresh, -⟩, hstore⟩
    rw [← htrim] at hlen
    obtain ⟨record, hrecord, hid⟩ : ∃ record, newGrant cfg (request.member labelPrefix i)
        (attempts i).now (attempts i).code hash = .ok record ∧ record.id = parts.id :=
      ⟨_, newGrant_eq_ok.mpr ⟨_, parts, (validateText_label hpre hi).mpr ⟨rfl, hlen⟩, hlimits,
        hcode, rfl⟩, rfl⟩
    rw [← hid] at hfresh
    have hstorable := (isStorable_withGrant hs hfresh).mpr
      ((wellFormed_newGrant hlabelTrim hrecord).mpr ⟨hvalid, hsupported, htime⟩)
    exact ⟨_, hash, record, hhash, hrecord, hfresh,
      Bool.and_eq_true_iff.mpr ⟨hstorable, decide_eq_true hstore⟩, rfl⟩

/-- Where all grants of the loop have what they need, all are created. -/
lemma createGrants_of_works (remaining first : ℕ) (hle : first + remaining ≤ 101)
    (hs : isStorable C n.state = true) (hworks : ∀ i, first ≤ i → i < first + remaining →
      Works C request attempts n.state.grants first i) :
    ∃ grants records m, Node.createGrants C cfg request labelPrefix attempts remaining first n
        = (m, .ok grants) ∧ grants.length = remaining ∧
      records.map AccessGrantRecord.id = grants.map CreateAccessGrantResponse.id ∧
      m.state.grants = n.state.grants ++ records ∧ (remaining ≠ 0 → m.file = m.state) := by
  induction remaining generalizing first n with
  | zero => exact ⟨[], [], n, rfl, rfl, rfl, (append_nil _).symm, fun h => absurd rfl h⟩
  | succ remaining ih =>
    obtain ⟨grant, hgrant⟩ := (exists_tryCreateGrant_iff hpre hlimits hs (by omega)).mpr
      (hworks first le_rfl (by omega))
    obtain ⟨record, parts, hcode, hid, hresponse, hstorable, hnode⟩ := tryCreateGrant_of_ok hgrant
    obtain ⟨grants, records, m, hloop, hlength, hids, hstate, hfile⟩ :=
      @ih { n with state := withGrant n.state record, file := withGrant n.state record }
        (first + 1) (by omega) hstorable fun i hi hlt =>
          (works_after hcode hid hi).mpr (hworks i (by omega) (by omega))
    refine ⟨grant :: grants, record :: records, m, ?_, ?_, ?_, ?_, ?_⟩
    · simp only [Node.createGrants, hnode, hloop]
    · rw [length_cons, hlength]
    · rw [map_cons, map_cons, hids, hresponse]
    · rw [hstate, withGrant, append_assoc, singleton_append]
    · intro _
      cases remaining with
      | zero =>
        cases hloop
        rfl
      | succ remaining => exact hfile (Nat.succ_ne_zero remaining)

/-- Where one has not, the loop ends with an error.  Then nothing has changed when the first had not, and
the first grant stays when it had. -/
lemma createGrants_of_not_works (hstore : ∀ i, (attempts i).store ≠ .replaced)
    (remaining first : ℕ) (hle : first + remaining ≤ 101) (hs : isStorable C n.state = true)
    (hworks : ¬∀ i, first ≤ i → i < first + remaining →
      Works C request attempts n.state.grants first i) :
    ∃ e m, Node.createGrants C cfg request labelPrefix attempts remaining first n = (m, .error e) ∧
      ((¬Works C request attempts n.state.grants first first ∧ m = n) ∨
        (Works C request attempts n.state.grants first first ∧
          n.state.grants.length < m.state.grants.length)) := by
  induction remaining generalizing first n with
  | zero => exact absurd (fun i hi hlt => absurd hi (by omega)) hworks
  | succ remaining ih =>
    have hiff := @exists_tryCreateGrant_iff C cfg n request labelPrefix attempts hpre hlimits hs
      first (by omega)
    cases hgrant : (n.tryCreateGrant C cfg (request.member labelPrefix first)
        (attempts first)).2 with
    | error e =>
      have hnode := tryCreateGrant_of_error (hstore first) hgrant
      refine ⟨e, n, ?_, .inl ⟨fun h => ?_, rfl⟩⟩
      · simp only [Node.createGrants, hnode]
      · obtain ⟨response, hok⟩ := hiff.mpr h
        rw [hgrant] at hok
        cases hok
    | ok grant =>
      obtain ⟨record, parts, hcode, hid, -, hstorable, hnode⟩ := tryCreateGrant_of_ok hgrant
      have hfirst := hiff.mp ⟨grant, hgrant⟩
      have hrest : ¬∀ i, first + 1 ≤ i → i < first + 1 + remaining →
          Works C request attempts (withGrant n.state record).grants (first + 1) i := by
        intro hall
        refine hworks fun i hi hlt => ?_
        rcases Nat.eq_or_lt_of_le hi with rfl | hi
        · exact hfirst
        · exact (works_after hcode hid hi).mp (hall i hi (by omega))
      obtain ⟨e, m, hloop, hkept⟩ :=
        @ih { n with state := withGrant n.state record, file := withGrant n.state record }
          (first + 1) (by omega) hstorable hrest
      refine ⟨e, m, ?_, .inr ⟨hfirst, ?_⟩⟩
      · simp only [Node.createGrants, hnode, hloop]
      · have hlength : (withGrant n.state record).grants.length = n.state.grants.length + 1 := by
          rw [withGrant, length_append, length_singleton]
        rcases hkept with ⟨-, rfl⟩ | ⟨-, hlt⟩
        · exact hlength ▸ Nat.lt_succ_self _
        · have hlt' : (withGrant n.state record).grants.length < m.state.grants.length := hlt
          omega

end Loop

/-! ### The batch as a whole -/

/-- All grants of the batch are returned and recorded, or none is recorded. -/
def AllOrNothing (n : Node) (count : ℕ)
    (r : Node × Except ServiceError (List CreateAccessGrantResponse)) : Prop :=
  (∃ grants records, r.2 = .ok grants ∧ grants.length = count ∧
      records.map AccessGrantRecord.id = grants.map CreateAccessGrantResponse.id ∧
      r.1.state.grants = n.state.grants ++ records ∧ r.1.file.grants = n.state.grants ++ records) ∨
    ∃ e, r.2 = .error e ∧ r.1.state.grants = n.state.grants ∧ r.1.file.grants = n.file.grants

/-- The request passes the checks that it is subject to as a whole. -/
structure Admissible (cfg : Config) (request : CreateAccessGrantBatchRequest) : Prop where
  count : request.count ≠ 0 ∧ request.count ≤ 100
  labelPrefix : ∃ labelPrefix,
    validateText request.labelPrefix "label_prefix" maxLabelLength = .ok labelPrefix
  limits : WithinLimits cfg request.maxConnections request.validForMinutes request.protocols
    request.allowance

section Batch

variable {n : Node} {request : CreateAccessGrantBatchRequest} {attempts : ℕ → Attempt}

lemma AllOrNothing.refused (n : Node) (count : ℕ) (e : ServiceError) :
    AllOrNothing n count (n, .error e) := .inr ⟨e, rfl, rfl, rfl⟩

/-- A request that is refused as a whole changes nothing. -/
lemma allOrNothing_of_not_admissible (hstore : (attempts 1).store ≠ .replaced)
    (h : ¬Admissible cfg request) :
    AllOrNothing n request.count (n.createGrantBatch C cfg request attempts) := by
  unfold Node.createGrantBatch
  split
  · exact .refused n _ _
  · rename_i hcount
    cases hpre : validateText request.labelPrefix "label_prefix" maxLabelLength with
    | error e => exact .refused n _ e
    | ok labelPrefix =>
      -- what is left to fail is a limit, and the first grant fails by it
      obtain ⟨remaining, hremaining⟩ : ∃ remaining, request.count = remaining + 1 :=
        Nat.exists_eq_succ_of_ne_zero (by omega)
      cases hgrant : (n.tryCreateGrant C cfg (request.member labelPrefix 1) (attempts 1)).2 with
      | error e =>
        simp only [hremaining, Node.createGrants, tryCreateGrant_of_error hstore hgrant]
        exact .refused n _ e
      | ok grant =>
        obtain ⟨hash, record, -, hrecord, -⟩ := tryCreateGrant_eq_ok.mp hgrant
        obtain ⟨-, -, -, hlimits, -⟩ := newGrant_eq_ok.mp hrecord
        exact absurd ⟨by omega, ⟨labelPrefix, hpre⟩, hlimits⟩ h

lemma createGrantBatch_of_admissible (h : Admissible cfg request) {labelPrefix : String}
    (hpre : validateText request.labelPrefix "label_prefix" maxLabelLength = .ok labelPrefix) :
    n.createGrantBatch C cfg request attempts
      = Node.createGrants C cfg request labelPrefix attempts request.count 1 n := by
  have hcount : ¬(request.count = 0 ∨ 100 < request.count) := by
    have := h.count
    omega
  rw [Node.createGrantBatch, if_neg hcount, hpre]

/-- **When a batch is all or nothing.**  In a state that can be stored, and with stores that fail before
they replace the file: exactly when the request is refused as a whole, or the first grant lacks
something, or no grant does. -/
theorem batch_all_or_nothing_iff (hs : isStorable C n.state = true)
    (hstore : ∀ i, (attempts i).store ≠ .replaced) :
    AllOrNothing n request.count (n.createGrantBatch C cfg request attempts) ↔
      ¬Admissible cfg request ∨ ¬Works C request attempts n.state.grants 1 1 ∨
        ∀ i, 1 ≤ i → i ≤ request.count → Works C request attempts n.state.grants 1 i := by
  by_cases hadmissible : Admissible cfg request
  swap
  · exact iff_of_true (allOrNothing_of_not_admissible (hstore 1) hadmissible) (.inl hadmissible)
  obtain ⟨labelPrefix, hpre⟩ := hadmissible.labelPrefix
  have hcount := hadmissible.count
  rw [createGrantBatch_of_admissible hadmissible hpre]
  by_cases hworks : ∀ i, 1 ≤ i → i < 1 + request.count → Works C request attempts n.state.grants 1 i
  · refine iff_of_true ?_ (.inr (.inr fun i hi hle => hworks i hi (by omega)))
    obtain ⟨grants, records, m, hloop, hlength, hids, hstate, hfile⟩ :=
      createGrants_of_works hpre hadmissible.limits request.count 1 (by omega) hs hworks
    rw [hloop]
    exact .inl ⟨grants, records, rfl, hlength, hids, hstate, hfile hcount.1 ▸ hstate⟩
  · obtain ⟨e, m, hloop, hfirst⟩ := createGrants_of_not_works hpre hadmissible.limits hstore
      request.count 1 (by omega) hs hworks
    rw [hloop]
    rcases hfirst with ⟨hfirst, rfl⟩ | ⟨hfirst, hlt⟩
    · exact iff_of_true (.refused m _ e) (.inr (.inl hfirst))
    · refine iff_of_false ?_ ?_
      · rintro (⟨grants, records, hok, -⟩ | ⟨e', -, hstate, -⟩)
        · cases hok
        · exact absurd (congrArg List.length hstate) (Nat.ne_of_gt hlt)
      · rintro (h | h | h)
        · exact h hadmissible
        · exact h hfirst
        · exact hworks fun i hi hlt => h i hi (by omega)

end Batch

/-- A distinct code for each of the first hundred grants, and no failure. -/
def Sample.attempts (i : ℕ) : Attempt where
  now := 10
  code := "Grant000" ++ (if i < 10 then "0" else "") ++ toString i ++ "abcdefghijklmnopqrstuv"
  hash := .ok "hash"
  store := .stored

/-- A batch of two. -/
def Sample.pair : CreateAccessGrantBatchRequest := ⟨"family", 2, 1, 60, .all, none⟩

theorem batch_all_or_nothing_pair : AllOrNothing Node.initial 2
      (Node.initial.createGrantBatch Sample.crypto Sample.config Sample.pair Sample.attempts) := by
  refine (batch_all_or_nothing_iff (by decide +kernel) (fun i => by simp [Sample.attempts])).mpr
    (.inr (.inr fun i hi hle => ?_))
  have hi2 : i = 1 ∨ i = 2 := by
    have : Sample.pair.count = 2 := rfl
    omega
  rcases hi2 with rfl | rfl
  · exact ⟨by decide +kernel, by decide +kernel, ⟨"hash", rfl, by decide +kernel, by decide +kernel⟩,
      ⟨⟨"Grant00001", "abcdefghijklmnopqrstuv"⟩, by decide +kernel, by decide +kernel,
        fun j hj hlt => absurd hlt (Nat.not_lt.mpr hj)⟩, rfl⟩
  · refine ⟨by decide +kernel, by decide +kernel, ⟨"hash", rfl, by decide +kernel, by decide +kernel⟩,
      ⟨⟨"Grant00002", "abcdefghijklmnopqrstuv"⟩, by decide +kernel, by decide +kernel, ?_⟩, rfl⟩
    intro j hj hlt other hother
    obtain rfl : j = 1 := by omega
    have hcode : splitAccessCode (Sample.attempts 1).code
        = some ⟨"Grant00001", "abcdefghijklmnopqrstuv"⟩ := by decide +kernel
    rw [hcode] at hother
    cases hother
    decide +kernel

/-- A batch of ten whose prefix leaves room for one digit only. -/
def Sample.longPrefix : CreateAccessGrantBatchRequest :=
  ⟨String.ofList (List.replicate 62 'a'), 10, 1, 60, .all, none⟩

lemma Sample.longPrefix_eq_ok : validateText Sample.longPrefix.labelPrefix "label_prefix"
    maxLabelLength = .ok Sample.longPrefix.labelPrefix := by
  decide +kernel

/-- The tenth label is too long.  The request fails for it, and grants that were created before
stay. -/
theorem batch_keeps_earlier :
    let r := Node.initial.createGrantBatch Sample.crypto Sample.config Sample.longPrefix
      Sample.attempts
    (∃ e, r.2 = .error e) ∧ Node.initial.state.grants.length < r.1.state.grants.length := by
  have hlimits : WithinLimits Sample.config 1 60 .all none :=
    ⟨by decide, by decide, by decide, by decide⟩
  have hfirst : Works Sample.crypto Sample.longPrefix Sample.attempts Node.initial.state.grants 1 1 :=
    ⟨by decide +kernel, by decide +kernel, ⟨"hash", rfl, by decide +kernel, by decide +kernel⟩,
      ⟨⟨"Grant00001", "abcdefghijklmnopqrstuv"⟩, by decide +kernel, by decide +kernel,
        fun j hj hlt => absurd hlt (Nat.not_lt.mpr hj)⟩, rfl⟩
  have htenth : ¬Works Sample.crypto Sample.longPrefix Sample.attempts Node.initial.state.grants 1 10 :=
    fun h => absurd h.label (by decide +kernel)
  obtain ⟨e, m, hloop, hkept⟩ := createGrants_of_not_works Sample.longPrefix_eq_ok hlimits
    (fun i => by simp [Sample.attempts]) 10 1 (by decide) (by decide +kernel)
    fun h => htenth (h 10 (by decide) (by decide))
  have hbatch : Node.initial.createGrantBatch Sample.crypto Sample.config Sample.longPrefix
      Sample.attempts = (m, .error e) := by
    rw [createGrantBatch_of_admissible ⟨by decide, ⟨_, Sample.longPrefix_eq_ok⟩, hlimits⟩
      Sample.longPrefix_eq_ok]
    exact hloop
  rw [hbatch]
  refine ⟨⟨e, rfl⟩, ?_⟩
  rcases hkept with ⟨hnot, -⟩ | ⟨-, hlt⟩
  · exact absurd hfirst hnot
  · exact hlt

end Ket.Server

import DecisionAssurance.WrittenAssessments
import DecisionAssurance.IntakeTrust
import DecisionAssurance.Paging
import DecisionAssurance.ReachedDecisions

/-!
# The listing of decisions

Both repositories list the documents of a tenant by `updated_at` and id, newest first, and read a
summary off each. The summary's `outcome` is a field that the contract gives no document.
-/

namespace DecisionAssurance

open Tables Paging Intake

structure DecisionSummary where
  decisionId : Json
  title : Json
  status : Json
  outcome : Json
  updatedAt : String
  deriving DecidableEq

/-- `_decision_summary` -/
def decisionSummary (document : Json) (updatedAt : String) : DecisionSummary where
  decisionId := document.get "decision_id"
  title := if (document.get "title").truthy then document.get "title"
    else document.get "decision_id"
  status := document.get "status"
  outcome := document.get "outcome"
  updatedAt := updatedAt

/-- What the database keeps and compares: the column `updated_at` with its text in a summary, and
the key that the collation of ids compares by, which is another for every id. -/
structure ListingColumns (σ κ : Type) where
  updatedAt : CaseKey → σ
  text : σ → String
  collate : String → κ
  collate_injective : Function.Injective collate

def tenantRows (tenant : TenantContext) (t : DecisionTables) : List DecisionRow :=
  t.decisions.filter fun r => r.tenantId = tenant.tenantId

section Rows

variable {σ κ : Type} (columns : ListingColumns σ κ) {t : DecisionTables}

def ListingColumns.summary (r : DecisionRow) : DecisionSummary :=
  decisionSummary r.document.toJson (columns.text (columns.updatedAt r.key))

variable {columns}

theorem summary_decisionId (hs : t.Sound) {r : DecisionRow} (hr : r ∈ t.decisions) :
    (columns.summary r).decisionId = .str r.decisionId := by
  rw [← hs.named r hr]
  rfl

theorem summary_status (r : DecisionRow) :
    (columns.summary r).status = .str r.document.status.value := by
  simp [ListingColumns.summary, decisionSummary, DecisionFile.toJson, Json.get]

/-- No document has a field `outcome`. -/
theorem summary_outcome (r : DecisionRow) : (columns.summary r).outcome = .null := by
  simp [ListingColumns.summary, decisionSummary, DecisionFile.toJson, Json.get]

theorem ofOption_eq_null {value : Option String} : Json.ofOption value = .null ↔ value = none := by
  cases value with
  | none => simp [Json.ofOption]
  | some s => simp [Json.ofOption]

theorem mem_tenantRows {tenant : TenantContext} (hs : t.Sound) {id : String}
    {d : DecisionFile} : t.getDecision tenant id = some d ↔
      ∃ r ∈ tenantRows tenant t, r.decisionId = id ∧ r.document = d := by
  unfold DecisionTables.getDecision tenantRows
  rw [Option.map_eq_some_iff]
  constructor
  · rintro ⟨r, hr, rfl⟩
    have hkey := key_of_lookup hr
    refine ⟨r, List.mem_filter.mpr ⟨mem_of_lookup hr, ?_⟩, congrArg Prod.snd hkey, rfl⟩
    exact decide_eq_true (congrArg Prod.fst hkey)
  · rintro ⟨r, hr, rfl, rfl⟩
    obtain ⟨hmem, htenant⟩ := List.mem_filter.mp hr
    refine ⟨r, hs.decisions.lookup_eq_some.mpr ⟨hmem, ?_⟩, rfl⟩
    exact Prod.ext (of_decide_eq_true htenant) rfl

/-! ## What summaries say -/

/-- A listing that agrees with the store. -/
structure ListsStore (tenant : TenantContext) (t : DecisionTables)
    (items : List DecisionSummary) : Prop where
  once : (items.map DecisionSummary.decisionId).Nodup
  complete : ∀ id d, t.getDecision tenant id = some d →
    Json.str id ∈ items.map DecisionSummary.decisionId
  agrees : ∀ item ∈ items, ∃ d, t.getDecision tenant d.decisionId = some d ∧
    item.decisionId = .str d.decisionId ∧ item.status = .str d.status.value ∧
      item.outcome = Json.ofOption (d.decisionOutcome.map Outcome.value)

/-- Summaries of the rows of a tenant agree with the store but for the outcomes. -/
theorem listsStore_iff {tenant : TenantContext} {t : DecisionTables} (hs : t.Sound)
    {items : List DecisionSummary}
    (hitems : items.Perm ((tenantRows tenant t).map columns.summary)) :
    ListsStore tenant t items ↔
      ∀ id d, t.getDecision tenant id = some d → d.decisionOutcome = none := by
  have hids : items.map DecisionSummary.decisionId |>.Perm
      ((tenantRows tenant t).map fun r => Json.str r.decisionId) := by
    have hperm := hitems.map DecisionSummary.decisionId
    rw [List.map_map] at hperm
    have hsame : (tenantRows tenant t).map (DecisionSummary.decisionId ∘ columns.summary) =
        (tenantRows tenant t).map fun r => Json.str r.decisionId :=
      List.map_congr_left fun r hr => summary_decisionId hs (List.mem_filter.mp hr).1
    rwa [hsame] at hperm
  constructor
  · intro hlists id d hd
    obtain ⟨r, hr, rfl, rfl⟩ := (mem_tenantRows hs).mp hd
    have hmem : columns.summary r ∈ items := hitems.mem_iff.mpr (List.mem_map_of_mem hr)
    obtain ⟨d', hd', hid, -, houtcome⟩ := hlists.agrees _ hmem
    rw [summary_outcome] at houtcome
    rw [summary_decisionId hs (List.mem_filter.mp hr).1] at hid
    rw [← Json.str.inj hid, hd] at hd'
    cases hd'
    simpa using ofOption_eq_null.mp houtcome.symm
  · intro hnone
    refine ⟨?_, ?_, ?_⟩
    · rw [hids.nodup_iff]
      have hnodup : (tenantRows tenant t).Nodup :=
        (List.Nodup.of_map _ hs.decisions).sublist List.filter_sublist
      apply hnodup.map_on
      intro r hr r' hr' hsame
      obtain ⟨hmem, htenant⟩ := List.mem_filter.mp hr
      obtain ⟨hmem', htenant'⟩ := List.mem_filter.mp hr'
      apply hs.decisions.eq_of_mem hmem hmem'
      exact Prod.ext ((of_decide_eq_true htenant).trans (of_decide_eq_true htenant').symm)
        (Json.str.inj hsame)
    · intro id d hd
      obtain ⟨r, hr, rfl, -⟩ := (mem_tenantRows hs).mp hd
      rw [hids.mem_iff]
      exact List.mem_map_of_mem hr
    · intro item hitem
      obtain ⟨r, hr, rfl⟩ := List.mem_map.mp (hitems.mem_iff.mp hitem)
      have hname := hs.named r (List.mem_filter.mp hr).1
      have hstored : t.getDecision tenant r.document.decisionId = some r.document :=
        (mem_tenantRows hs).mpr ⟨r, hr, hname.symm, rfl⟩
      refine ⟨r.document, hstored, ?_, summary_status r, ?_⟩
      · rw [summary_decisionId hs (List.mem_filter.mp hr).1, hname]
      · rw [summary_outcome, hnone _ _ hstored]
        rfl

end Rows

section Listing

variable {σ κ : Type} [LinearOrder σ] [LinearOrder κ] (columns : ListingColumns σ κ)

/-- `ORDER BY updated_at DESC, decision_id DESC` -/
def ListingColumns.before (r r' : DecisionRow) : Prop :=
  columns.updatedAt r'.key < columns.updatedAt r.key ∨
    columns.updatedAt r.key = columns.updatedAt r'.key ∧
      columns.collate r'.decisionId ≤ columns.collate r.decisionId

instance : DecidableRel columns.before := fun _ _ => inferInstanceAs (Decidable (_ ∨ _))

inductive ListingError
  | invalidPageLimit
  deriving DecidableEq

def invalidPage (limit offset : ℤ) : Bool := !(1 ≤ limit && limit ≤ 100) || offset < 0

/-- What `list_decisions` may answer, however the database orders rows that compare alike. -/
def MayList (tenant : TenantContext) (t : DecisionTables) (limit offset : ℤ)
    (answer : Except ListingError (List DecisionSummary)) : Prop :=
  if invalidPage limit offset then answer = .error .invalidPageLimit
  else ∃ page, Selects columns.before (tenantRows tenant t) limit.toNat offset.toNat page ∧
    answer = .ok (page.map columns.summary)

variable {columns}

theorem before_total (r r' : DecisionRow) : columns.before r r' ∨ columns.before r' r := by
  unfold ListingColumns.before
  rcases lt_trichotomy (columns.updatedAt r.key) (columns.updatedAt r'.key) with h | h | h
  · exact Or.inr (Or.inl h)
  · rcases le_total (columns.collate r'.decisionId) (columns.collate r.decisionId) with hle | hle
    · exact Or.inl (Or.inr ⟨h, hle⟩)
    · exact Or.inr (Or.inr ⟨h.symm, hle⟩)
  · exact Or.inl (Or.inl h)

theorem before_trans {r r' r'' : DecisionRow} (h : columns.before r r')
    (h' : columns.before r' r'') : columns.before r r'' := by
  unfold ListingColumns.before at h h' ⊢
  rcases h with hlt | ⟨heq, hle⟩
  · rcases h' with hlt' | ⟨heq', -⟩
    · exact Or.inl (hlt'.trans hlt)
    · exact Or.inl (heq' ▸ hlt)
  · rcases h' with hlt' | ⟨heq', hle'⟩
    · exact Or.inl (heq ▸ hlt')
    · exact Or.inr ⟨heq.trans heq', hle'.trans hle⟩

instance : Std.Total columns.before := ⟨before_total⟩

instance : IsTrans DecisionRow columns.before := ⟨fun _ _ _ => before_trans⟩

/-- The rows of a tenant are told apart by the order. -/
theorem before_antisymm {tenant : TenantContext} {t : DecisionTables} (hs : t.Sound) :
    ∀ r ∈ tenantRows tenant t, ∀ r' ∈ tenantRows tenant t, columns.before r r' →
      columns.before r' r → r = r' := by
  intro r hr r' hr' h h'
  obtain ⟨hmem, htenant⟩ := List.mem_filter.mp hr
  obtain ⟨hmem', htenant'⟩ := List.mem_filter.mp hr'
  have hid : columns.collate r.decisionId = columns.collate r'.decisionId := by
    rcases h with hlt | ⟨heq, hle⟩
    · rcases h' with hlt' | ⟨heq', -⟩
      · exact absurd hlt (lt_asymm hlt')
      · exact absurd heq' hlt.ne
    · rcases h' with hlt' | ⟨-, hle'⟩
      · exact absurd heq hlt'.ne
      · exact le_antisymm hle' hle
  apply hs.decisions.eq_of_mem hmem hmem'
  exact Prod.ext ((of_decide_eq_true htenant).trans (of_decide_eq_true htenant').symm)
    (columns.collate_injective hid)

/-- The pages of a tenant agree with its store exactly if none of its decisions has an outcome. -/
theorem pages_iff {tenant : TenantContext} {t : DecisionTables} (hs : t.Sound) {limit : ℤ}
    (hlimit : 1 ≤ limit ∧ limit ≤ 100) {n : ℕ}
    (hn : (tenantRows tenant t).length ≤ n * limit.toNat) :
    (∀ pages : ℕ → List DecisionSummary,
      (∀ i < n, MayList columns tenant t limit (i * limit) (.ok (pages i))) →
        ListsStore tenant t ((List.range n).flatMap pages)) ↔
      ∀ id d, t.getDecision tenant id = some d → d.decisionOutcome = none := by
  have hvalid : ∀ i : ℕ, invalidPage limit (i * limit) = false := by
    intro i
    have hoffset : 0 ≤ (i : ℤ) * limit := Int.mul_nonneg (by omega) (by omega)
    simp [invalidPage, hlimit.1, hlimit.2, hoffset]
  have hoffset : ∀ i : ℕ, ((i : ℤ) * limit).toNat = i * limit.toNat := by
    intro i
    obtain ⟨k, rfl⟩ := Int.eq_ofNat_of_zero_le (show 0 ≤ limit by omega)
    norm_cast
  have hperm : ∀ pages : ℕ → List DecisionSummary,
      (∀ i < n, MayList columns tenant t limit (i * limit) (.ok (pages i))) →
        ((List.range n).flatMap pages).Perm ((tenantRows tenant t).map columns.summary) := by
    intro pages hpages
    have hrows : ∀ i, ∃ page, i < n →
        Selects columns.before (tenantRows tenant t) limit.toNat (i * limit.toNat) page ∧
          pages i = page.map columns.summary := by
      intro i
      by_cases hi : i < n
      · have hpage := hpages i hi
        rw [MayList, if_neg (by simp [hvalid i]), hoffset] at hpage
        obtain ⟨page, hselects, hpage⟩ := hpage
        exact ⟨page, fun _ => ⟨hselects, Except.ok.inj hpage⟩⟩
      · exact ⟨[], fun h => absurd h hi⟩
    choose page hpage using hrows
    have hmap : (List.range n).flatMap pages =
        ((List.range n).flatMap page).map columns.summary := by
      rw [List.map_flatMap]
      apply List.flatMap_congr
      intro i hi
      exact (hpage i (List.mem_range.mp hi)).2
    rw [hmap]
    apply List.Perm.map
    exact perm_flatMap_pages (before_antisymm hs) (fun i hi => (hpage i hi).1) hn
  constructor
  · intro hlists
    -- sorting in place answers every page
    have hpages : ∀ i < n, MayList columns tenant t limit (i * limit) (.ok
        (((((tenantRows tenant t).insertionSort columns.before).drop (i * limit.toNat)).take
          limit.toNat).map columns.summary)) := by
      intro i _
      rw [MayList, if_neg (by simp [hvalid i]), hoffset]
      exact ⟨_, selects_insertionSort, rfl⟩
    exact (listsStore_iff hs (hperm _ hpages)).mp (hlists _ hpages)
  · intro hnone pages hpages
    exact (listsStore_iff hs (hperm pages hpages)).mpr hnone

theorem listing_agrees_iff (b : Backend) (py : Interpreter) (acts : List Act)
    (columns : ListingColumns σ κ) (tenant : TenantContext) (limit : ℤ)
    (hlimit : 1 ≤ limit ∧ limit ≤ 100) (n : ℕ)
    (hn : (tenantRows tenant (decisionsAfter b py acts)).length ≤ n * limit.toNat) :
    (∀ pages : ℕ → List DecisionSummary,
      (∀ i < n, MayList columns tenant (decisionsAfter b py acts) limit (i * limit)
        (.ok (pages i))) →
        ListsStore tenant (decisionsAfter b py acts) ((List.range n).flatMap pages)) ↔
      ∀ id d, (decisionsAfter b py acts).getDecision tenant id = some d →
        d.decisionOutcome = none :=
  pages_iff (sound_decisionsAfter acts) hlimit hn

end Listing

/-! ## A listed decision with an outcome -/

/-- A column with one value, and ids compared by their characters. -/
def plainColumns : ListingColumns ℕ String where
  updatedAt _ := 0
  text _ := "2026-01-01 00:00:00"
  collate id := id
  collate_injective _ _ h := h

def passedActs : List Act :=
  [.decision (.create authorCaller { draftCase with decisionOutcome := some .pass })]

theorem passedActs_outcome : ¬∀ id d,
    (decisionsAfter .sqlite asciiInterpreter passedActs).getDecision tenantA id = some d →
      d.decisionOutcome = none := by
  intro h
  have hstored : ((decisionsAfter .sqlite asciiInterpreter passedActs).getDecision tenantA
      "case-1").map DecisionFile.decisionOutcome = some (some .pass) := by
    rfl
  obtain ⟨d, hd, houtcome⟩ := Option.map_eq_some_iff.mp hstored
  rw [h _ d hd] at houtcome
  cases houtcome

theorem passedActs_rows : (tenantRows tenantA (decisionsAfter .sqlite asciiInterpreter
    passedActs)).length ≤ 1 * (25 : ℤ).toNat := by
  decide

theorem listing_agrees_iff_passed : ¬∀ pages : ℕ → List DecisionSummary,
    (∀ i < (1 : ℕ), MayList plainColumns tenantA
      (decisionsAfter .sqlite asciiInterpreter passedActs) 25 (i * 25) (.ok (pages i))) →
      ListsStore tenantA (decisionsAfter .sqlite asciiInterpreter passedActs)
        ((List.range 1).flatMap pages) := by
  intro h
  exact passedActs_outcome ((listing_agrees_iff .sqlite asciiInterpreter passedActs plainColumns
    tenantA 25 (by decide) 1 passedActs_rows).mp h)

/-- The outcome of a passed decision is listed as null. -/
theorem outcome_unlisted : ¬∀ (b : Backend) (py : Interpreter) (acts : List Act)
    (columns : ListingColumns ℕ String) (tenant : TenantContext) (limit : ℤ),
    1 ≤ limit ∧ limit ≤ 100 → ∀ n : ℕ,
    (tenantRows tenant (decisionsAfter b py acts)).length ≤ n * limit.toNat →
    ∀ pages : ℕ → List DecisionSummary,
      (∀ i < n, MayList columns tenant (decisionsAfter b py acts) limit (i * limit)
        (.ok (pages i))) →
        ListsStore tenant (decisionsAfter b py acts) ((List.range n).flatMap pages) := by
  intro h
  apply passedActs_outcome
  have hpages := h .sqlite asciiInterpreter passedActs plainColumns tenantA 25 (by decide) 1
    passedActs_rows
  exact (pages_iff (sound_decisionsAfter passedActs) (by decide) passedActs_rows).mp hpages

end DecisionAssurance

import SealedColumns.Proofs.ClientCalls
import SealedColumns.Sample.Ciphers
import SealedColumns.Sample.Script

/-!
Which values a statement encrypts before the client sees them. A statement keeps the
text and the table with which it was prepared. The keys that are visited belong to
configured columns or to names generated for them, and the two kinds are not told
apart: an occurrence is encrypted if its name before renaming is configured, and also
if a name that renaming made up happens to be.
-/

namespace SealedColumns

open Placeholder (rename sites namesOf separate_rename)

namespace Statement

variable {state handle : Type}

/-- What preparing a text settles, and no operation changes. -/
structure PreparedFrom (sql : String) (statement : Statement handle) : Prop where
  text : statement.sql = (rename sql).sql
  table : statement.expansions = (rename sql).expansions

/-- Nothing has changed but the handle and the state. -/
def SameSettings (statement after : Statement handle) : Prop :=
  ∃ handle state, after = { statement with handle, state }

section Kept
variable {sql : String} {client : Client state handle} {world : World state}
  {statement : Statement handle}

theorem preparedFrom_prepare {cipher : Option Cipher} {layout : RowLayout}
    (done : (prepare client world sql cipher layout).result = .ok statement) :
    PreparedFrom sql statement := by
  unfold prepare at done
  dsimp only at done
  split at done
  · contradiction
  · obtain rfl := Except.ok.inj done
    exact ⟨rfl, rfl⟩

theorem sameSettings_nextRow :
    SameSettings statement (nextRow client world statement).statement := by
  unfold nextRow
  split
  · exact ⟨_, _, rfl⟩
  · dsimp only
    split <;> exact ⟨_, _, rfl⟩

theorem sameSettings_remainingRows :
    SameSettings statement (remainingRows client world statement).statement := by
  unfold remainingRows
  split
  · exact ⟨_, _, rfl⟩
  · dsimp only
    split <;> exact ⟨_, _, rfl⟩

theorem sameSettings_execute (params : Parameters) :
    SameSettings statement (statement.execute client world params).statement := by
  unfold execute
  split
  · exact ⟨_, _, rfl⟩
  · dsimp only
    split
    · exact ⟨_, _, rfl⟩
    · split <;> exact ⟨_, _, rfl⟩

theorem PreparedFrom.of_sameSettings {after : Statement handle}
    (prepared : PreparedFrom sql statement) (kept : SameSettings statement after) :
    PreparedFrom sql after := by
  obtain ⟨_, _, rfl⟩ := kept
  exact ⟨prepared.text, prepared.table⟩

@[simp] theorem Step.statement_map {α β : Type} (f : α → β) (step : Step state handle α) :
    (step.map f).statement = step.statement := rfl

@[simp] theorem Step.statement_andThen {α β : Type} (step : Step state handle α)
    (next : α → Except Error β × Trace) : (step.andThen next).statement = step.statement := by
  unfold Step.andThen
  split <;> rfl

variable {α : Type} [OfRow α]

theorem preparedFrom_perform (prepared : PreparedFrom sql statement) (operation : Operation) :
    PreparedFrom sql
      (statement.perform client world operation : Step state handle (Answer α)).statement := by
  cases operation with
  | encryptColumns | withCipher | withLayout | close => exact ⟨prepared.text, prepared.table⟩
  | execute params => exact prepared.of_sameSettings (sameSettings_execute params)
  | fetch | fetchAs =>
      simpa [perform, fetch, fetchAs] using prepared.of_sameSettings sameSettings_nextRow
  | fetchRest | fetchRestAs =>
      simpa [perform, fetchRest, fetchRestAs] using
        prepared.of_sameSettings sameSettings_remainingRows

end Kept

/-! What the client is given. -/

section Sites
variable {sql old new : String} {columns : List String} {params : Parameters}

/-- The visited keys that are bound belong to occurrences with a configured name. -/
theorem sealable_targets_iff (plain : ∀ column ∈ columns, hasSigil column = false)
    (known : params.Within (namesOf sql)) (single : params.OneForm) :
    (∀ key ∈ (targetsOf columns (rename sql).expansions).map (·.key), ∀ value,
        ((rename sql).expansions.expand params).get? key = some value → value.Sealable) ↔
      ∀ site ∈ sites sql, Visited columns site → ∀ value,
        params.value? site.1 = some value → value.Sealable := by
  constructor
  · rintro sealable ⟨old, new⟩ site visited value bound
    rw [← Placeholder.value?_expand_of_notOverridden
        (Placeholder.notOverridden_of_within known old) site] at bound
    obtain ⟨key, keyed, found⟩ := Parameters.get?_of_value? bound
    exact sealable key ((mem_keys_of_site plain site keyed).mpr visited) value found
  · intro sealable key visited value found
    obtain ⟨column, configured, name, own, keyed⟩ := (mem_keys_targetsOf _ _ _).mp visited
    have namePlain : hasSigil name = false := by
      rcases List.mem_cons.mp own with rfl | generated
      · exact plain name configured
      · exact (separate_rename sql).plainName column name generated
    obtain ⟨old, site, bound⟩ :=
      Placeholder.exists_site_of_get?_expand known single namePlain keyed found
    exact sealable (old, name) site ((mem_keys_of_site plain site keyed).mp visited) value bound

section Prepared
variable {statement : Statement handle} {cipher : Cipher}
  (prepared : PreparedFrom sql statement) (ciphered : statement.cipher = some cipher)
  (plain : ∀ column ∈ statement.sealedColumns, hasSigil column = false)
  (known : params.Within (namesOf sql))
include prepared ciphered

theorem sealing_eq (draws : Nat) (params : Parameters) :
    statement.sealing draws params =
      sealTargets cipher (targetsOf statement.sealedColumns (rename sql).expansions)
        ((rename sql).expansions.expand params) draws := by
  rw [sealing, prepared.table, ciphered]
  rfl

include plain known

theorem sealing_ok_iff (draws : Nat) (single : params.OneForm)
    (succeeds : ∀ key value plaintext draw, params.get? key = some value →
      value.isBlank = false → value.toText? = some plaintext →
        ∃ ciphertext, cipher.encrypt draw plaintext = .ok ciphertext) :
    (∃ count, (statement.sealing draws params).result = .ok count) ↔
      ∀ site ∈ sites sql, Visited statement.sealedColumns site → ∀ value,
        params.value? site.1 = some value → value.Sealable := by
  have distinct := nodup_targetsOf statement.sealedColumns (rename sql).expansions
  rw [sealing_eq prepared ciphered, ← sealable_targets_iff plain known single]
  apply sealTargets_ok_iff distinct
  intro key _ value plaintext found visible text draw
  -- What is bound after expansion was bound by the caller, if under another key.
  obtain ⟨source, bound⟩ := Placeholder.exists_get?_of_expandEntries
    (separate_rename sql).plain_of_mem found
  exact succeeds source value plaintext draw bound visible text

theorem sealedIf_sealing {draws count : Nat}
    (done : (statement.sealing draws params).result = .ok count) {site : String × String}
    (member : site ∈ sites sql) :
    cipher.SealedIf (Visited statement.sealedColumns site) (params.value? site.1)
      ((statement.sealing draws params).params.value? site.2) := by
  have distinct := nodup_targetsOf statement.sealedColumns (rename sql).expansions
  have free := Placeholder.notOverridden_of_within known site.1
  rw [sealing_eq prepared ciphered] at done ⊢
  rw [← Placeholder.value?_expand_of_notOverridden free member]
  apply Cipher.sealedIf_value?
  intro key keyed
  rw [← Cipher.sealedIf_congr (mem_keys_of_site plain member keyed)]
  exact sealTargets_ok distinct done key

end Prepared

/-- The client executes the statement once. Of an occurrence whose value is bound and not
    blank, it is given a ciphertext if the name in the text as it was written is a configured
    column, and also if the name made up for it is one; otherwise it is given the value
    itself. If a value cannot be encrypted the client is not called. An occurrence counts by its new name although the caller never saw that
    name: where it is a configured column and the old name is not, a value is encrypted
    that nobody asked to encrypt. -/
theorem execute_seals_sites {client : Client state handle} {world : World state}
    {statement : Statement handle} {cipher : Cipher} (prepared : PreparedFrom sql statement)
    (opened : statement.state ≠ .closed) (ciphered : statement.cipher = some cipher)
    (plain : ∀ column ∈ statement.sealedColumns, hasSigil column = false)
    (known : params.Within (namesOf sql)) (single : params.OneForm)
    (succeeds : ∀ key value plaintext draw, params.get? key = some value →
      value.isBlank = false → value.toText? = some plaintext →
        ∃ ciphertext, cipher.encrypt draw plaintext = .ok ciphertext) :
    ((∀ site ∈ sites sql, Visited statement.sealedColumns site → ∀ value,
        params.value? site.1 = some value → value.Sealable) →
      ∃ handed,
        (statement.execute client world params).Executes client world statement handed
        ∧ ∀ site ∈ sites sql,
            cipher.SealedIf (Visited statement.sealedColumns site)
              (params.value? site.1) (handed.value? site.2))
    ∧ ((∃ site ∈ sites sql, Visited statement.sealedColumns site
        ∧ ∃ value, params.value? site.1 = some value ∧ ¬ value.Sealable) →
      (statement.execute client world params).Uncalled world statement
        ∧ (statement.execute client world params).statement = statement
        ∧ ∃ cause, (statement.execute client world params).result = .error cause) := by
  have goes := sealing_ok_iff prepared ciphered plain known world.draws single succeeds
  constructor
  · intro sealable
    obtain ⟨count, done⟩ := goes.mpr sealable
    refine ⟨_, executes_of_sealing_ok opened done, ?_⟩
    intro site member
    exact sealedIf_sealing prepared ciphered plain known done member
  · rintro ⟨site, member, visited, value, bound, binary⟩
    cases result : (statement.sealing world.draws params).result with
    | error cause => exact uncalled_of_sealing_error client result
    | ok count => exact absurd (goes.mp ⟨count, result⟩ site member visited value bound) binary

/-- A statement that repeats a placeholder, with a column that has the name made up for
    the first occurrence. -/
def capturing : Statement Nat where
  handle := 0
  sql := (rename "SELECT :x, :x").sql
  expansions := (rename "SELECT :x, :x").expansions
  sealedColumns := ["x_0"]
  cipher := some (Sample.tag none)
  layout := .standard
  state := .prepared

def idleScript : Sample.Script := ⟨none, [], true, none, none, none, none⟩

/-- The placeholder is not a configured column; the first of its two occurrences is
    encrypted all the same, the second is not. -/
theorem execute_seals_made_name :
    "x" ∉ capturing.sealedColumns
    ∧ ∃ handed,
      (capturing.execute idleScript.client Sample.Script.start
        (NameMap.ofList [("x", .int 5)])).Executes idleScript.client Sample.Script.start
          capturing handed
      ∧ handed.value? "x_0" = some (.text "enc:5") ∧ handed.value? "x_1" = some (.int 5) := by
  constructor
  · decide
  have found : sites "SELECT :x, :x" = [("x", "x_0"), ("x", "x_1")] := by decide +kernel
  have value : Parameters.value? (NameMap.ofList [("x", .int 5)]) "x" = some (.int 5) := rfl
  have single : Parameters.OneForm (NameMap.ofList [("x", .int 5)]) := by
    intro name
    by_cases same : name = "x"
    · subst same
      exact Or.inr (by decide +kernel)
    · exact Or.inl (by simp [NameMap.contains, NameMap.ofList, same])
  obtain ⟨handed, executes, each⟩ := (@execute_seals_sites _ _ "SELECT :x, :x"
    (NameMap.ofList [("x", .int 5)]) idleScript.client Sample.Script.start capturing
    (Sample.tag none) ⟨rfl, rfl⟩ (by decide) rfl (by decide) (by decide +kernel) single
    (fun _ _ plaintext _ _ _ _ => ⟨Sample.sealedMark ++ plaintext, rfl⟩)).1
    (by
      intro site member visited bound here
      have same : site.1 = "x" := by
        rw [found] at member
        rcases List.mem_pair.mp member with rfl | rfl <;> rfl
      rw [same, value] at here
      exact Or.inr (by simp [← Option.some.inj here, Value.toText?]))
  have first := each ("x", "x_0") (by simp [found])
  have second := each ("x", "x_1") (by simp [found])
  rw [value, Cipher.sealedIf_some_iff] at first second
  refine ⟨handed, executes, ?_, ?_⟩
  · rcases first with ⟨-, -, sealed, ⟨draw, plaintext, ciphertext, text, done, rfl⟩, here⟩ | ⟨no, -⟩
    · obtain rfl := Option.some.inj text
      obtain rfl := Except.ok.inj done
      exact here
    · exact absurd ⟨Or.inr (by decide), rfl⟩ no
  · rcases second with ⟨due, -⟩ | ⟨-, here⟩
    · exact absurd due (by decide)
    · exact here

end Sites

end Statement

end SealedColumns

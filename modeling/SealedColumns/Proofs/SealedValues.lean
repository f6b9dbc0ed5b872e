import SealedColumns.Proofs.Visits
import SealedColumns.Sample.Ciphers

/-!
Which values a sealing pass replaces, and by what. The values that are not blank are
encrypted in the order of the visits, each in a call of its own, and the ciphertext stands
in the place of the value it was made from. A pass that fails did this with everything
before the value that was refused, and nothing to that value or behind it.
-/

namespace SealedColumns

open Placeholder (Expansions rename)

theorem Parameters.shows_iff (params : Parameters) (key : String) :
    params.shows key = true ↔ ∃ value, params.get? key = some value ∧ value.isBlank = false := by
  simp [shows]

theorem Sealing.after_error_iff (later : Sealing) (plaintext : String) (cause : Error) :
    (later.after plaintext).result = .error cause ↔ later.result = .error cause := by
  cases result : later.result <;> simp [Sealing.after, result, Except.map]

/-- A value that is not blank lacks a text form only if it is bytes that are not UTF-8. -/
theorem Value.exists_blob_of_toText?_eq_none {value : Value} (visible : value.isBlank = false)
    (binary : value.toText? = none) :
    ∃ data, value = .blob data ∧ ∀ text, data ≠ Text.bytes text := by
  rcases (Value.toText?_eq_none_iff value).mp binary with rfl | ⟨data, rfl, unread⟩
  · contradiction
  · refine ⟨data, rfl, fun text same => ?_⟩
    rw [same, Text.decode?_bytes] at unread
    contradiction

namespace Cipher
variable {cipher : Cipher}

/-- The values under the keys are replaced, in this order, by what the cipher made of their
    text forms, in as many calls from the draw on. Nothing else changes. -/
structure Replaces (cipher : Cipher) (params : Parameters) (draws : Nat) (keys : List String)
    (after : Parameters) (calls : Trace) : Prop where
  length_calls : calls.length = keys.length
  replaced : ∀ place key, keys[place]? = some key → ∃ value plaintext ciphertext,
    params.get? key = some value ∧ value.isBlank = false ∧ value.toText? = some plaintext
      ∧ calls[place]? = some (.cipher (.encrypt plaintext))
      ∧ cipher.encrypt (draws + place) plaintext = .ok ciphertext
      ∧ after.get? key = some (.text ciphertext)
  kept : ∀ key, key ∉ keys → after.get? key = params.get? key

/-- Why a pass ends at a key that is reached through the column, and the call it made for
    the value there, if any. -/
inductive Refuses (cipher : Cipher) (draw : Nat) (key column : String) (value : Value) :
    Error → Trace → Prop where
  | binary {data : List UInt8} (blob : value = .blob data) (visible : data ≠ [])
      (notText : ∀ text, data ≠ Text.bytes text) :
      Refuses cipher draw key column value (.parameter (.binary key)) []
  | failed {plaintext : String} {fault : CipherFault} (text : value.toText? = some plaintext)
      (answer : cipher.encrypt draw plaintext = .error fault) :
      Refuses cipher draw key column value (.encryption column fault)
        [.cipher (.encrypt plaintext)]

theorem replaces_nil (params : Parameters) (draws : Nat) :
    cipher.Replaces params draws [] params [] where
  length_calls := rfl
  replaced := by
    intro place key found
    contradiction
  kept := fun _ _ => rfl

theorem Replaces.cons {params after : Parameters} {draws : Nat} {keys : List String}
    {key plaintext ciphertext : String} {value : Value} {calls : Trace} (fresh : key ∉ keys)
    (found : params.get? key = some value) (visible : value.isBlank = false)
    (text : value.toText? = some plaintext)
    (answer : cipher.encrypt draws plaintext = .ok ciphertext)
    (rest : cipher.Replaces (params.insert key (.text ciphertext)) (draws + 1) keys after calls) :
    cipher.Replaces params draws (key :: keys) after (.cipher (.encrypt plaintext) :: calls) where
  length_calls := congrArg (· + 1) rest.length_calls
  replaced := by
    intro place other here
    cases place with
    | zero =>
        obtain rfl := Option.some.inj here
        refine ⟨value, plaintext, ciphertext, found, visible, text, rfl, answer, ?_⟩
        rw [rest.kept key fresh, NameMap.get?_insert, if_pos rfl]
    | succ place =>
        rw [List.getElem?_cons_succ] at here
        obtain ⟨old, written, made, bound, shown, read, call, given, left⟩ :=
          rest.replaced place other here
        have differ : other ≠ key := by
          rintro rfl
          exact fresh (List.mem_of_getElem? here)
        rw [NameMap.get?_insert, if_neg differ] at bound
        rw [Nat.add_right_comm, Nat.add_assoc] at given
        exact ⟨old, written, made, bound, shown, read, call, given, left⟩
  kept := by
    intro other outside
    rw [rest.kept other (List.not_mem_of_not_mem_cons outside), NameMap.get?_insert,
      if_neg (List.ne_of_not_mem_cons outside)]

theorem Refuses.parameter_iff {draw : Nat} {key column : String} {value : Value} {cause : Error}
    {last : Trace} (refuses : cipher.Refuses draw key column value cause last) :
    (∃ fault, cause = .parameter fault) ↔
      ∃ data, value = .blob data ∧ ∀ text, data ≠ Text.bytes text := by
  cases refuses with
  | @binary data blob visible notText => exact ⟨fun _ => ⟨data, blob, notText⟩, fun _ => ⟨_, rfl⟩⟩
  | @failed plaintext fault text answer =>
      constructor
      · rintro ⟨_, same⟩
        contradiction
      · rintro ⟨data, rfl, notText⟩
        exact absurd (Text.eq_bytes_of_decode? text) (notText plaintext)

theorem Refuses.not_accepted {draw : Nat} {key column plaintext ciphertext : String}
    {value : Value} {cause : Error} {last : Trace}
    (refuses : cipher.Refuses draw key column value cause last)
    (text : value.toText? = some plaintext) :
    cipher.encrypt draw plaintext ≠ .ok ciphertext := by
  intro accepted
  cases refuses with
  | binary blob visible notText =>
      rw [blob] at text
      exact notText plaintext (Text.eq_bytes_of_decode? text)
  | failed own answer =>
      obtain rfl := Option.some.inj (own.symm.trans text)
      rw [answer] at accepted
      contradiction

end Cipher

/-! One pass. -/

section Pass
variable {cipher : Cipher} {targets : List Target} {params : Parameters} {draws : Nat}

/-- The keys with a value to encrypt. -/
def dueKeys (params : Parameters) (targets : List Target) : List String :=
  (targets.map (·.key)).filter params.shows

theorem dueKeys_cons_of_shows {target : Target} (shows : params.shows target.key)
    (rest : List Target) : dueKeys params (target :: rest) = target.key :: dueKeys params rest :=
  List.filter_cons_of_pos shows

theorem dueKeys_cons_of_not_shows {target : Target} (hides : ¬ params.shows target.key)
    (rest : List Target) : dueKeys params (target :: rest) = dueKeys params rest :=
  List.filter_cons_of_neg hides

theorem dueKeys_insert {target : Target} {rest : List Target} (value : Value)
    (fresh : target.key ∉ rest.map (·.key)) :
    dueKeys (params.insert target.key value) rest = dueKeys params rest := by
  apply List.filter_congr
  intro key member
  have differ : key ≠ target.key := by
    rintro rfl
    exact fresh member
  exact Parameters.shows_insert params value differ

theorem not_mem_dueKeys {target : Target} {rest : List Target}
    (fresh : target.key ∉ rest.map (·.key)) : target.key ∉ dueKeys params rest :=
  fun member => fresh (List.mem_filter.mp member).1

theorem replaces_of_ok {count : Nat} (distinct : (targets.map (·.key)).Nodup)
    (done : (sealTargets cipher targets params draws).result = .ok count) :
    count = (dueKeys params targets).length
    ∧ cipher.Replaces params draws (dueKeys params targets)
      (sealTargets cipher targets params draws).params
      (sealTargets cipher targets params draws).trace := by
  fun_induction sealTargets cipher targets params draws generalizing count with
  | case1 params draws => exact ⟨(Except.ok.inj done).symm, Cipher.replaces_nil params draws⟩
  | case4 | case5 => contradiction
  | case2 target rest params draws absent ih =>
      rw [dueKeys_cons_of_not_shows (by simp [Parameters.shows, absent])]
      exact ih (List.nodup_cons.mp distinct).2 done
  | case3 target rest params draws value found blank ih =>
      rw [dueKeys_cons_of_not_shows (by simp [Parameters.shows, found, blank])]
      exact ih (List.nodup_cons.mp distinct).2 done
  | case6 target rest params draws value found visible plaintext text ciphertext answer ih =>
      obtain ⟨fresh, tail⟩ := List.nodup_cons.mp distinct
      obtain ⟨others, doneLater, rfl⟩ := exists_ok_of_map done
      obtain ⟨counted, later⟩ := ih tail doneLater
      -- The key that is written does not come again.
      rw [dueKeys_insert _ fresh] at counted later
      have shown : value.isBlank = false := by simpa using visible
      rw [dueKeys_cons_of_shows ((Parameters.shows_iff _ _).mpr ⟨value, found, shown⟩)]
      exact ⟨congrArg (· + 1) counted,
        later.cons (not_mem_dueKeys fresh) found shown text answer⟩

/-- A pass that fails, up to the target at which it does. -/
theorem refuses_of_error {cause : Error} (distinct : (targets.map (·.key)).Nodup)
    (failed : (sealTargets cipher targets params draws).result = .error cause) :
    ∃ before target after, targets = before ++ target :: after ∧ ∃ calls last value,
      cipher.Replaces params draws (dueKeys params before)
        (sealTargets cipher targets params draws).params calls
      ∧ (sealTargets cipher targets params draws).trace = calls ++ last
      ∧ params.get? target.key = some value ∧ value.isBlank = false
      ∧ cipher.Refuses (draws + calls.length) target.key target.column value cause last := by
  fun_induction sealTargets cipher targets params draws with
  | case1 => contradiction
  | case2 target rest params draws absent ih =>
      obtain ⟨before, stop, after, rfl, calls, last, value, replaces, others⟩ :=
        ih (List.nodup_cons.mp distinct).2 failed
      refine ⟨target :: before, stop, after, rfl, calls, last, value, ?_, others⟩
      rwa [dueKeys_cons_of_not_shows (by simp [Parameters.shows, absent])]
  | case3 target rest params draws value found blank ih =>
      obtain ⟨before, stop, after, rfl, calls, last, held, replaces, others⟩ :=
        ih (List.nodup_cons.mp distinct).2 failed
      refine ⟨target :: before, stop, after, rfl, calls, last, held, ?_, others⟩
      rwa [dueKeys_cons_of_not_shows (by simp [Parameters.shows, found, blank])]
  | case4 target rest params draws value found visible binary =>
      obtain rfl := Except.error.inj failed
      have shown : value.isBlank = false := by simpa using visible
      obtain ⟨data, rfl, unread⟩ := Value.exists_blob_of_toText?_eq_none shown binary
      have filled : data ≠ [] := by
        rintro rfl
        contradiction
      exact ⟨[], target, rest, rfl, [], [], .blob data, Cipher.replaces_nil params draws, rfl,
        found, shown, .binary rfl filled unread⟩
  | case5 target rest params draws value found visible plaintext text cause answer =>
      obtain rfl := Except.error.inj failed
      exact ⟨[], target, rest, rfl, [], _, value, Cipher.replaces_nil params draws, rfl, found,
        by simpa using visible, .failed text answer⟩
  | case6 target rest params draws value found visible plaintext text ciphertext answer ih =>
      obtain ⟨fresh, tail⟩ := List.nodup_cons.mp distinct
      obtain ⟨before, stop, after, rfl, calls, last, held, replaces, trace, bound, shownLater,
        refuses⟩ := ih tail ((Sealing.after_error_iff _ _ _).mp failed)
      have shown : value.isBlank = false := by simpa using visible
      have freshBefore : target.key ∉ before.map (·.key) := fun again =>
        fresh (by rw [List.map_append]; exact List.mem_append_left _ again)
      have differ : stop.key ≠ target.key := fun same => fresh (by simp [same])
      rw [dueKeys_insert _ freshBefore] at replaces
      rw [NameMap.get?_insert, if_neg differ] at bound
      refine ⟨target :: before, stop, after, rfl, .cipher (.encrypt plaintext) :: calls, last,
        held, ?_, congrArg (_ :: ·) trace, bound, shownLater, ?_⟩
      · rw [dueKeys_cons_of_shows ((Parameters.shows_iff _ _).mpr ⟨value, found, shown⟩)]
        exact replaces.cons (not_mem_dueKeys freshBefore) found shown text answer
      · rwa [List.length_cons, Nat.add_comm calls.length, ← Nat.add_assoc]

end Pass

/-! All of the parameters. -/

section Parameters
variable {params : Parameters} {columns : List String} {table : Expansions} {cipher : Cipher}
  {draws : Nat}

theorem dueKeys_targetsOf (params : Parameters) (columns : List String) (table : Expansions) :
    dueKeys params (targetsOf columns table) = (visits columns table).filter params.shows := by
  rw [dueKeys, keys_targetsOf]

theorem mem_due_iff (key : String) :
    key ∈ (visits columns table).filter params.shows ↔ Reached columns table key
      ∧ ∃ value, params.get? key = some value ∧ value.isBlank = false := by
  rw [List.mem_filter, mem_visits, Parameters.shows_iff]

theorem reached_congr {others : List String}
    (same : ∀ column, column ∈ others ↔ column ∈ columns) (key : String) :
    Reached others table key ↔ Reached columns table key :=
  exists_congr fun column => and_congr_left fun _ => same column

/-- A pass that goes through replaces the values that are not blank under the keys of the
    columns and of the names generated for them, each once, by a ciphertext of its own text
    form; no other value changes, and no key comes or goes. The order of the columns settles
    the order of the calls and nothing else, and listing a column again changes nothing. -/
theorem sealParameters_replaces_once {count : Nat}
    (done : (sealParameters params columns table (some cipher) draws).result = .ok count) :
    let pass := sealParameters params columns table (some cipher) draws
    (∀ key, pass.params.contains key = params.contains key)
    ∧ ∃ keys : List String, keys.Nodup ∧ keys.length = count
      ∧ (∀ key, key ∈ keys ↔ Reached columns table key
          ∧ ∃ value, params.get? key = some value ∧ value.isBlank = false)
      ∧ cipher.Replaces params draws keys pass.params pass.trace
      ∧ sealParameters params columns.eraseDups table (some cipher) draws = pass
      ∧ ∀ others, (∀ column, column ∈ others ↔ column ∈ columns) → ∀ start otherCount,
          let other := sealParameters params others table (some cipher) start
          other.result = .ok otherCount → ∃ reordered, reordered.Perm keys ∧ otherCount = count
            ∧ cipher.Replaces params start reordered other.params other.trace := by
  intro pass
  obtain ⟨counted, replaces⟩ := replaces_of_ok (nodup_targetsOf columns table) done
  rw [dueKeys_targetsOf] at counted replaces
  have distinct := (nodup_visits columns table).filter params.shows
  refine ⟨contains_sealTargets _ _ _, _, distinct, counted.symm, mem_due_iff, replaces, ?_, ?_⟩
  · exact congrArg (sealTargets cipher · params draws) (targetsOf_eraseDups columns table)
  · intro others same start otherCount other doneOther
    obtain ⟨countedOther, replacesOther⟩ :=
      replaces_of_ok (nodup_targetsOf others table) doneOther
    rw [dueKeys_targetsOf] at countedOther replacesOther
    have reordered : ((visits others table).filter params.shows).Perm
        ((visits columns table).filter params.shows) := by
      apply (List.perm_ext_iff_of_nodup ((nodup_visits others table).filter _) distinct).mpr
      intro key
      rw [mem_due_iff, mem_due_iff, reached_congr same]
    exact ⟨_, reordered, by rw [counted, countedOther, reordered.length_eq], replacesOther⟩

/-- Parameters for the names generated for `ssn`, for a key with its sigil, and one blank. -/
def patient : Parameters :=
  NameMap.ofList
    [("ssn_0", .text "123"), ("ssn_1", .text "123"), (":card", .int 42), ("note", .text "")]

def ssnTwice : Expansions := NameMap.ofList [("ssn", ["ssn_0", "ssn_1"])]

theorem patient_sealed_once :
    ∃ keys : List String, keys.Nodup ∧ keys.length = 3 ∧ ":card" ∈ keys ∧ "ssn_1" ∈ keys
      ∧ (Sample.tag none).Replaces patient 7 keys
        (sealParameters patient ["ssn", "note", "ssn", "ssn_1", ":card"] ssnTwice
          (some (Sample.tag none)) 7).params
        (sealParameters patient ["ssn", "note", "ssn", "ssn_1", ":card"] ssnTwice
          (some (Sample.tag none)) 7).trace := by
  obtain ⟨-, keys, distinct, counted, due, replaces, -⟩ :=
    @sealParameters_replaces_once patient ["ssn", "note", "ssn", "ssn_1", ":card"] ssnTwice
      (Sample.tag none) 7 3 rfl
  refine ⟨keys, distinct, counted, (due _).mpr ⟨?_, _, rfl, rfl⟩, (due _).mpr ⟨?_, _, rfl, rfl⟩,
    replaces⟩
  · exact ⟨":card", by simp, ":card", by simp, Or.inl rfl⟩
  · exact ⟨"ssn", by simp, "ssn_1", by decide, Or.inl rfl⟩

/-- A pass that fails does so at one key, in the order of the visits. The values before it
    that are not blank are replaced by their ciphertexts; its own value, the ones behind it and
    the keys stay. Either this value is bytes that are not UTF-8, and the cipher was not asked,
    or the cipher refused it, and the error names the first column that has the key. A pass
    goes through if all values have a text form and the cipher refuses none of them. -/
theorem sealParameters_stops_at_refusal (params : Parameters) (columns : List String)
    (table : Expansions) (cipher : Cipher) (draws : Nat) :
    let pass := sealParameters params columns table (some cipher) draws
    let due := (visits columns table).filter params.shows
    (∀ cause, pass.result = .error cause →
      (∀ key, pass.params.contains key = params.contains key)
      ∧ ∃ before key after, visits columns table = before ++ key :: after
        ∧ ∃ calls last value column,
          cipher.Replaces params draws (before.filter params.shows) pass.params calls
          ∧ pass.trace = calls ++ last
          ∧ params.get? key = some value ∧ value.isBlank = false
          ∧ pass.params.get? key = some value
          ∧ columns.find? (fun column => key ∈ keysOfColumn table column) = some column
          ∧ cipher.Refuses (draws + calls.length) key column value cause last
          ∧ ((∃ fault, cause = .parameter fault) ↔
            ∃ data, value = .blob data ∧ ∀ text, data ≠ Text.bytes text))
    ∧ ((∀ place key, due[place]? = some key → ∃ value plaintext ciphertext,
          params.get? key = some value ∧ value.toText? = some plaintext
            ∧ cipher.encrypt (draws + place) plaintext = .ok ciphertext) →
        pass.result = .ok due.length) := by
  intro pass due
  have distinct := nodup_targetsOf columns table
  constructor
  · intro cause failed
    obtain ⟨before, target, after, split, calls, last, value, replaces, trace, bound, shown,
      refuses⟩ := refuses_of_error distinct failed
    have order : visits columns table =
        before.map (·.key) ++ target.key :: after.map (·.key) := by
      rw [← keys_targetsOf, split, List.map_append, List.map_cons]
    have first : target ∈ targetsOf columns table := by simp [split]
    have fresh : target.key ∉ before.map (·.key) := by
      have apart := nodup_visits columns table
      rw [order] at apart
      exact fun again => (List.nodup_append.mp apart).2.2 _ again _ List.mem_cons_self rfl
    refine ⟨contains_sealTargets _ _ _, _, _, _, order, calls, last, value, target.column,
      replaces, trace, bound, shown, ?_, find?_column_of_mem_targetsOf first, refuses,
      refuses.parameter_iff⟩
    exact (replaces.kept _ (not_mem_dueKeys fresh)).trans bound
  · intro accepted
    cases result : pass.result with
    | ok count => rw [(replaces_of_ok distinct result).1, dueKeys_targetsOf]
    | error cause =>
        obtain ⟨before, target, after, split, calls, last, value, replaces, -, bound, shown,
          refuses⟩ := refuses_of_error distinct result
        have here : due[calls.length]? = some target.key := by
          have order : due = dueKeys params before ++ target.key :: dueKeys params after := by
            rw [← dueKeys_cons_of_shows ((Parameters.shows_iff _ _).mpr ⟨value, bound, shown⟩),
              dueKeys, dueKeys, ← List.filter_append, ← List.map_append, ← split, keys_targetsOf]
          rw [order, replaces.length_calls, List.getElem?_append_right (Nat.le_refl _),
            Nat.sub_self]
          rfl
        obtain ⟨other, plaintext, ciphertext, found, text, answer⟩ := accepted _ _ here
        obtain rfl := Option.some.inj (bound.symm.trans found)
        exact absurd answer (refuses.not_accepted text)

/-- Parameters of which one, under a name generated for `ssn`, contains the text `no`. -/
def charge : Parameters :=
  NameMap.ofList [("amount", .int 5), ("ssn_0", .text "123"), ("ssn_1", .text "no")]

/-- A cipher that refuses the text stops at that name, which is listed as a column too, and
    tells the column that came first; a cipher that refuses nothing does not stop. -/
theorem charge_stops_at_ssn :
    (∃ key value calls last, charge.get? key = some value
      ∧ (sealParameters charge ["amount", "ssn", "ssn_1"] ssnTwice
          (some (Sample.tag (some "no"))) 0).params.get? key = some value
      ∧ ["amount", "ssn", "ssn_1"].find? (fun column => key ∈ keysOfColumn ssnTwice column) =
          some "ssn"
      ∧ (Sample.tag (some "no")).Refuses (0 + calls) key "ssn" value
          (.encryption "ssn" (.failed (.refused "refused: no"))) last)
    ∧ (sealParameters charge ["amount", "ssn", "ssn_1"] ssnTwice
        (some (Sample.tag none)) 0).result = .ok 3 := by
  constructor
  · obtain ⟨-, before, key, after, -, calls, last, value, column, -, -, bound, -, kept, reached,
      refuses, -⟩ :=
      (sealParameters_stops_at_refusal charge ["amount", "ssn", "ssn_1"] ssnTwice
        (Sample.tag (some "no")) 0).1 (.encryption "ssn" (.failed (.refused "refused: no"))) rfl
    have named : column = "ssn" := by
      cases refuses
      rfl
    subst named
    exact ⟨key, value, _, last, bound, kept, reached, refuses⟩
  · have due : (visits ["amount", "ssn", "ssn_1"] ssnTwice).filter charge.shows =
        ["amount", "ssn_0", "ssn_1"] := by decide +kernel
    have goes := (sealParameters_stops_at_refusal charge ["amount", "ssn", "ssn_1"] ssnTwice
      (Sample.tag none) 0).2
    rw [due] at goes
    apply goes
    intro place key here
    rcases List.mem_cons.mp (List.mem_of_getElem? here) with rfl | later
    · exact ⟨_, _, _, rfl, rfl, rfl⟩
    · rcases List.mem_pair.mp later with rfl | rfl <;> exact ⟨_, _, _, rfl, rfl, rfl⟩

end Parameters

end SealedColumns

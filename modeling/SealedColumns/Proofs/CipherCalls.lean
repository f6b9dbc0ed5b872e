import SealedColumns.Proofs.Lifecycle
import SealedColumns.Proofs.RoundTrip

/-!
What a statement gives to the cipher. Only blank values could have an empty text form or
hold an empty ciphertext, and a value is looked at before the cipher is called. So over all
that is done with a statement the cipher never gets an empty text.
-/

namespace SealedColumns

/-- The text that the cipher is given. -/
def CipherCall.text : CipherCall → String
  | encrypt plaintext => plaintext
  | decrypt ciphertext => ciphertext

namespace Trace

/-- The cipher is given no empty text. -/
def Visible (trace : Trace) : Prop := ∀ call ∈ trace.cipherCalls, call.text ≠ ""

theorem visible_of_cipherCalls {trace : Trace} (silent : trace.cipherCalls = []) :
    trace.Visible := by
  rw [Visible, silent]
  exact List.forall_mem_nil _

theorem visible_append {before after : Trace} :
    (before ++ after).Visible ↔ before.Visible ∧ after.Visible := by
  rw [Visible, cipherCalls_append, List.forall_mem_append]
  rfl

theorem visible_cons_cipher {call : CipherCall} {rest : Trace} :
    Visible (.cipher call :: rest) ↔ call.text ≠ "" ∧ rest.Visible := List.forall_mem_cons

theorem Decrypting.visible {trace : Trace} (decrypting : trace.Decrypting) : trace.Visible := by
  intro call member
  obtain ⟨action, done, same⟩ := List.mem_filterMap.mp member
  cases decrypting action done with
  | called visible =>
      obtain rfl := Option.some.inj same
      exact visible
  | logged => contradiction

end Trace

theorem visible_sealTargets (cipher : Cipher) (targets : List Target) (params : Parameters)
    (draws : Nat) : (sealTargets cipher targets params draws).trace.Visible := by
  fun_induction sealTargets cipher targets params draws with
  | case1 | case4 => exact Trace.visible_of_cipherCalls rfl
  | case2 _ _ _ _ _ ih | case3 _ _ _ _ _ _ _ ih => exact ih
  | case5 target rest params draws value found visible plaintext text =>
      have visible : value.isBlank = false := by simpa using visible
      exact Trace.visible_cons_cipher.mpr
        ⟨Value.toText?_ne_empty visible text, Trace.visible_of_cipherCalls rfl⟩
  | case6 target rest params draws value found visible plaintext text ciphertext answer ih =>
      have visible : value.isBlank = false := by simpa using visible
      exact Trace.visible_cons_cipher.mpr ⟨Value.toText?_ne_empty visible text, ih⟩

/-! Operations. -/

namespace Statement

variable {state handle α β : Type} {client : Client state handle} {world : World state}
  {statement : Statement handle}

theorem Step.Continues.visible {step : Step state handle α} {other : Step state handle β}
    (continues : step.Continues other) (before : step.trace.Visible) : other.trace.Visible := by
  obtain ⟨later, decrypting, traced⟩ := continues.trace
  rw [traced]
  exact Trace.visible_append.mpr ⟨before, decrypting.visible⟩

theorem visible_nextRow : (nextRow client world statement).trace.Visible := by
  apply Trace.visible_of_cipherCalls
  unfold nextRow
  split
  · rfl
  · dsimp only
    split <;> rfl

theorem visible_remainingRows : (remainingRows client world statement).trace.Visible := by
  apply Trace.visible_of_cipherCalls
  unfold remainingRows
  split
  · rfl
  · dsimp only
    split <;> rfl

theorem visible_sealing (draws : Nat) (params : Parameters) :
    (statement.sealing draws params).trace.Visible := by
  unfold sealing sealParameters
  split
  · exact Trace.visible_of_cipherCalls rfl
  · exact visible_sealTargets _ _ _ _

theorem visible_execute (params : Parameters) :
    (statement.execute client world params).trace.Visible := by
  have sealed : (statement.sealing world.draws params).trace.Visible := visible_sealing _ _
  have behind (tail : Trace) (silent : tail.cipherCalls = []) :
      Trace.Visible ((statement.sealing world.draws params).trace ++ tail) :=
    Trace.visible_append.mpr ⟨sealed, Trace.visible_of_cipherCalls silent⟩
  unfold execute
  split
  · exact Trace.visible_of_cipherCalls rfl
  · dsimp only
    rw [← sealing]
    split
    · exact sealed
    · split <;> exact behind _ rfl

theorem visible_perform [OfRow α] (operation : Operation) :
    (statement.perform client world operation : Step state handle (Answer α)).trace.Visible := by
  cases operation with
  | encryptColumns | withCipher | withLayout | close => exact Trace.visible_of_cipherCalls rfl
  | execute params => exact visible_execute params
  | fetch columns layout => exact (continues_fetch ..).visible visible_nextRow
  | fetchAs columns => exact (continues_fetchAs ..).visible visible_nextRow
  | fetchRest columns layout => exact (continues_fetchRest ..).visible visible_remainingRows
  | fetchRestAs => exact (continues_fetchRestAs ..).visible visible_remainingRows

theorem visible_prepare (sql : String) (cipher : Option Cipher) (layout : RowLayout) :
    (prepare client world sql cipher layout).trace.Visible := by
  apply Trace.visible_of_cipherCalls
  unfold prepare
  dsimp only
  split <;> rfl

theorem visible_of_history {first last : Statement handle} {done : List Operation} {trace : Trace}
    (history : History client first done trace last) : trace.Visible := by
  induction history with
  | start => exact Trace.visible_of_cipherCalls rfl
  | next past performed ih =>
      obtain ⟨reads, world, rfl⟩ := performed
      exact Trace.visible_append.mpr ⟨ih, visible_perform _⟩

end Statement

end SealedColumns

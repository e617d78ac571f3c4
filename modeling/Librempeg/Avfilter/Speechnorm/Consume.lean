import Librempeg.Avfilter.Speechnorm.Ring

/-!
Contract: the consumption of periods in libavfilter/af_speechnorm.c: `get_pi_samples`,
`available_samples`, `next_pi`, `consume_pi`, and the sample loops of `FILTER_CHANNELS`
and `FILTER_LINK_CHANNELS`. The gains are not modelled: `next_gain`, `min_gain` and the
products of samples and gains read the periods' peaks and RMS sums, and decide nothing
the loops do; `min_gain` is left out with them, and with it the `int` sum of the period
sizes it walks.

Owns: the channel invariant across EOF (`ChannelContext.Invariant`: the ring is
`Pending`, or at EOF the period in use holds every unconsumed sample); that
`get_pi_samples` reads `acc` before EOF and overflows at EOF only past `INT_MAX`
samples; that one `next_pi` and one `consume_pi` keep the invariant and pass their
`av_assert1`s when the channel has the samples the loop still needs; and that both loops
then consume exactly the frame's samples from every channel.

Does not own: the analysis (`Speechnorm.Ring`) and the filter's events.
-/

namespace Librempeg.Avfilter.Speechnorm

/-! ### The functions -/

namespace ChannelContext

/-- `get_pi_samples(cc, eof)`: the samples the channel can give; at EOF the `int` sum
`cc->acc + pi[cc->pi_end].size`. -/
def getPiSamples (cc : ChannelContext) (eof : Bool) : Except Failure Nat :=
  if eof then
    if intMax < cc.acc + (cc.pi cc.piEnd).size then .error .overflow
    else .ok (cc.acc + (cc.pi cc.piEnd).size)
  else if (cc.pi cc.piStart).type = 0 then .ok cc.piSize
  else .ok cc.acc

/-- The load of `next_pi`: the period at `pi_start` becomes the one in use, its slot is
cleared (size and type 0) and `pi_start` advances. -/
def loadPi (cc : ChannelContext) : ChannelContext :=
  { cc with
    piSize := (cc.pi cc.piStart).size
    pi := Function.update cc.pi cc.piStart ⟨0, 0, (cc.pi cc.piStart).maxPeak⟩
    piStart := nextIndex cc.piStart }

@[simp] theorem loadPi_state (cc : ChannelContext) : cc.loadPi.state = cc.state := rfl
@[simp] theorem loadPi_piSize (cc : ChannelContext) : cc.loadPi.piSize = (cc.pi cc.piStart).size := rfl
@[simp] theorem loadPi_piStart (cc : ChannelContext) : cc.loadPi.piStart = nextIndex cc.piStart := rfl
@[simp] theorem loadPi_piEnd (cc : ChannelContext) : cc.loadPi.piEnd = cc.piEnd := rfl
@[simp] theorem loadPi_acc (cc : ChannelContext) : cc.loadPi.acc = cc.acc := rfl

/-- `next_pi(ctx, cc, bypass)` without the gain: when the period in use is spent, the one
at `pi_start` is loaded. The three `av_assert1`s: the loaded period has samples, it is
closed unless at EOF, and it is not the open one unless at EOF. `pi_size` is never
negative (`consume_pi` keeps it), so it is a `Nat`. -/
def nextPi (eof : Bool) (cc : ChannelContext) : Except Failure ChannelContext :=
  if cc.piSize = 0 then
    let item := cc.pi cc.piStart
    if item.size = 0 ∨ (item.type = 0 ∧ eof = false) ∨ (cc.piStart = cc.piEnd ∧ eof = false) then
      .error .assertion
    else .ok cc.loadPi
  else .ok cc

/-- `consume_pi(cc, nb_samples)`. -/
def consumePi (nbSamples : Nat) (cc : ChannelContext) : Except Failure ChannelContext :=
  if nbSamples ≤ cc.piSize then
    .ok { cc with piSize := cc.piSize - nbSamples, acc := cc.acc - min cc.acc nbSamples }
  else .error .assertion

/-- The `while (n < nb_samples)` loop of `FILTER_CHANNELS` for one channel, from `n` on,
with at most `fuel` rounds: load a period if needed, then consume
`size = FFMIN(nb_samples - n, cc->pi_size)` samples, which `av_assert1(size > 0)` requires
to be positive (a round that consumes nothing would repeat forever). -/
def filterChannel (eof : Bool) (nbSamples : Nat) : Nat → Nat → ChannelContext →
    Except Failure ChannelContext
  | 0, n, cc => if n < nbSamples then .error .assertion else .ok cc
  | fuel + 1, n, cc =>
      if n < nbSamples then
        match cc.nextPi eof with
        | .error failure => .error failure
        | .ok cc =>
            let size := min (nbSamples - n) cc.piSize
            if size = 0 then .error .assertion
            else
              match cc.consumePi size with
              | .error failure => .error failure
              | .ok cc => filterChannel eof nbSamples fuel (n + size) cc
      else .ok cc

end ChannelContext

/-- The loop of `available_samples` over the channels after channel 0, from the least
`get_pi_samples` so far; it stops once the minimum is 0. -/
def availableLoop (eof : Bool) (least : Nat) : List ChannelContext → Except Failure Nat
  | [] => .ok least
  | cc :: channels =>
      if 0 < least then
        match cc.getPiSamples eof with
        | .error failure => .error failure
        | .ok samples => availableLoop eof (min least samples) channels
      else .ok least

/-- `available_samples(ctx)`: the least `get_pi_samples` over the channels, from channel 0
on. An input link has at least one channel. -/
def availableSamples (eof : Bool) : List ChannelContext → Except Failure Nat
  | [] => .ok 0
  | cc :: channels =>
      match cc.getPiSamples eof with
      | .error failure => .error failure
      | .ok samples => availableLoop eof samples channels

/-- `filter_channels_dbl` and `filter_channels_flt`: the loop of each channel in turn,
over a frame of `nb_samples` samples. -/
def filterChannels (eof : Bool) (nbSamples : Nat) :
    List ChannelContext → Except Failure (List ChannelContext)
  | [] => .ok []
  | cc :: channels =>
      match cc.filterChannel eof nbSamples nbSamples 0 with
      | .error failure => .error failure
      | .ok cc => (filterChannels eof nbSamples channels).map (cc :: ·)

/-- The `while (n < nb_samples)` loop of `filter_link_channels_dbl` and
`filter_link_channels_flt`, from `n` on, with at most `fuel` rounds: `next_pi` on every
channel, `min_size` the least of `nb_samples - n` and their `pi_size`s, which
`av_assert1(min_size > 0)` requires to be positive, and `consume_pi` of `min_size` on
every channel. -/
def filterLinkChannels (eof : Bool) (nbSamples : Nat) : Nat → Nat → List ChannelContext →
    Except Failure (List ChannelContext)
  | 0, n, channels => if n < nbSamples then .error .assertion else .ok channels
  | fuel + 1, n, channels =>
      if n < nbSamples then
        match channels.mapM (ChannelContext.nextPi eof) with
        | .error failure => .error failure
        | .ok channels =>
            let minSize := channels.foldl (fun least cc => min least cc.piSize) (nbSamples - n)
            if minSize = 0 then .error .assertion
            else
              match channels.mapM (ChannelContext.consumePi minSize) with
              | .error failure => .error failure
              | .ok channels => filterLinkChannels eof nbSamples fuel (n + minSize) channels
      else .ok channels

/-- `s->filter_channels[s->link](ctx, in, out, in->nb_samples)`. -/
def filterChannelsOf (link eof : Bool) (nbSamples : Nat) (channels : List ChannelContext) :
    Except Failure (List ChannelContext) :=
  if link then filterLinkChannels eof nbSamples nbSamples 0 channels
  else filterChannels eof nbSamples channels

/-! ### The channel invariant across EOF -/

namespace ChannelContext

/-- The channel invariant with `queued` unconsumed samples: the ring is `Pending`, or, at
EOF once `next_pi` has loaded the open period, the period in use holds them all, and
neither `acc` nor `pi[pi_end]` counts any. -/
def Invariant (cc : ChannelContext) (eof : Bool) (queued : Nat) : Prop :=
  cc.Pending queued ∨ (eof = true ∧ cc.piSize = queued ∧ cc.acc = 0 ∧ (cc.pi cc.piEnd).size = 0)

variable {cc : ChannelContext} {eof : Bool} {queued : Nat}

theorem Pending.start_lt (inv : cc.Pending queued) : cc.piStart < maxItems := inv.ring.startInRing

theorem Pending.end_lt (inv : cc.Pending queued) : cc.piEnd < maxItems := inv.ring.endInRing

theorem Pending.acc_eq (inv : cc.Pending queued) : cc.acc = cc.piSize + totalSize cc.queue :=
  inv.ring.acc

theorem Pending.samples_eq (inv : cc.Pending queued) :
    queued = cc.piSize + totalSize cc.queue + (cc.pi cc.piEnd).size :=
  inv.ring.samples

theorem Pending.closed_mem (inv : cc.Pending queued) :
    ∀ item ∈ cc.queue, item.type = 1 ∧ 0 < item.size :=
  inv.ring.closed

theorem queue_eq (cc : ChannelContext) :
    cc.queue = ringItems cc.pi cc.piStart (pending cc.piStart cc.piEnd) := rfl

theorem queue_of_start_eq_end (same : cc.piStart = cc.piEnd) : cc.queue = [] := by
  simp [queue, Analysis.queue, same, ringItems]

theorem getPiSamples_of_pending (inv : cc.Pending queued) : cc.getPiSamples false = .ok cc.acc := by
  unfold getPiSamples
  rw [if_neg Bool.false_ne_true]
  split
  next opened =>
    by_cases same : cc.piStart = cc.piEnd
    · rw [inv.acc_eq, queue_of_start_eq_end same, totalSize_nil, Nat.add_zero]
    · have head := inv.closed_mem (cc.pi cc.piStart)
        (by rw [queue_eq, ringItems_pop cc.pi inv.start_lt inv.end_lt same ⟨0, 0, 0⟩]; simp)
      omega
  · rfl

theorem getPiSamples_overflow (inv : cc.Invariant eof queued) {failure : Failure}
    (fails : cc.getPiSamples eof = .error failure) : failure = .overflow ∧ intMax < queued := by
  unfold getPiSamples at fails
  split_ifs at fails with atEof past
  · cases fails
    refine ⟨rfl, ?_⟩
    rcases inv with inv | ⟨-, -, drained, empty⟩
    · have acc := inv.acc_eq
      have samples := inv.samples_eq
      omega
    · omega

theorem nextPi_load (spent : cc.piSize = 0) (nonempty : 0 < (cc.pi cc.piStart).size)
    (closed : (cc.pi cc.piStart).type ≠ 0 ∨ eof = true) (queuedOne : cc.piStart ≠ cc.piEnd ∨ eof = true) :
    cc.nextPi eof = .ok cc.loadPi := by
  dsimp only [nextPi]
  rw [if_pos spent, if_neg]
  rintro (empty | ⟨opened, before⟩ | ⟨same, before⟩)
  · omega
  · simp [opened, before] at closed
  · simp [same, before] at queuedOne

theorem Pending.loadPi (inv : cc.Pending queued) (spent : cc.piSize = 0)
    (queuedOne : cc.piStart ≠ cc.piEnd) : cc.loadPi.Pending queued := by
  have popped : cc.queue = cc.pi cc.piStart :: cc.loadPi.queue :=
    ringItems_pop cc.pi inv.start_lt inv.end_lt queuedOne _
  have openKept : cc.loadPi.pi cc.piEnd = cc.pi cc.piEnd :=
    Function.update_noteq (Ne.symm queuedOne) _ _
  have acc := inv.acc_eq
  have samples := inv.samples_eq
  rw [popped, totalSize_cons] at acc samples
  refine ⟨⟨nextIndex_lt inv.ring.startInRing, inv.ring.endInRing, ?_, ?_, ?_, ?_⟩, ?_⟩
  · intro item queued
    exact inv.closed_mem item (by rw [popped]; exact List.mem_cons_of_mem _ queued)
  · simpa [openKept] using inv.ring.openPeriod
  · show cc.acc = (cc.pi cc.piStart).size + totalSize cc.loadPi.queue
    omega
  · show queued = (cc.pi cc.piStart).size + totalSize cc.loadPi.queue + (cc.loadPi.pi cc.piEnd).size
    rw [openKept]; omega
  · simpa [openKept] using inv.started

theorem nextPi_ready (inv : cc.Invariant eof queued) {remaining : Nat} (needed : 0 < remaining)
    (enough : remaining ≤ queued) (available : eof = false → remaining ≤ cc.acc) :
    ∃ cc', cc.nextPi eof = .ok cc' ∧ 0 < cc'.piSize ∧ cc'.Invariant eof queued ∧ cc'.acc = cc.acc := by
  by_cases spent : cc.piSize = 0
  swap
  · exact ⟨cc, by simp [nextPi, spent], Nat.pos_of_ne_zero spent, inv, rfl⟩
  rcases inv with inv | ⟨_, drained, -⟩
  swap
  · omega
  have acc := inv.acc_eq
  have samples := inv.samples_eq
  by_cases same : cc.piStart = cc.piEnd
  · rw [queue_of_start_eq_end same, spent, totalSize_nil] at acc samples
    cases eof
    · have := available rfl; omega
    · refine ⟨_, nextPi_load spent (by rw [same]; omega) (.inr rfl) (.inr rfl), ?_,
        .inr ⟨rfl, ?_, by simp only [loadPi_acc]; omega, by simp [loadPi, same]⟩, rfl⟩ <;>
        simp only [loadPi_piSize, same] <;> omega
  · have head := inv.closed_mem (cc.pi cc.piStart)
      (by rw [queue_eq, ringItems_pop cc.pi inv.start_lt inv.end_lt same ⟨0, 0, 0⟩]; simp)
    exact ⟨_, nextPi_load spent head.2 (.inl (by omega)) (.inl same), head.2, .inl (inv.loadPi spent same), rfl⟩

theorem consumePi_ready (inv : cc.Invariant eof queued) {size : Nat} (fits : size ≤ cc.piSize) :
    ∃ cc', cc.consumePi size = .ok cc' ∧ cc'.Invariant eof (queued - size) ∧ cc'.acc = cc.acc - size := by
  refine ⟨_, by rw [consumePi, if_pos fits], ?_, by simp only; omega⟩
  rcases inv with inv | ⟨atEof, drained⟩
  · have acc := inv.acc_eq
    have samples := inv.samples_eq
    exact .inl ⟨⟨inv.ring.startInRing, inv.ring.endInRing, inv.ring.closed, inv.ring.openPeriod,
      show cc.acc - min cc.acc size = cc.piSize - size + totalSize cc.queue by omega,
      show queued - size = cc.piSize - size + totalSize cc.queue + (cc.pi cc.piEnd).size by omega⟩,
      inv.started⟩
  · exact .inr ⟨atEof, by simp only; omega, by simp only; omega, drained.2.2⟩

end ChannelContext

/-! ### The loops consume the frame -/

/-- **The loop of one channel consumes the frame.** From `n`, with enough fuel and the
samples the loop still needs, the loop passes every `av_assert1`, each round consuming at
least one sample, and ends having consumed exactly `nb_samples - n` samples. -/
theorem ChannelContext.filterChannel_ready (eof : Bool) (nbSamples fuel : Nat) :
    ∀ (n : Nat) (cc : ChannelContext) (queued : Nat), cc.Invariant eof queued →
      nbSamples - n ≤ queued → (eof = false → nbSamples - n ≤ cc.acc) → nbSamples - n ≤ fuel →
      ∃ cc', cc.filterChannel eof nbSamples fuel n = .ok cc' ∧
        cc'.Invariant eof (queued - (nbSamples - n)) := by
  induction fuel with
  | zero =>
    intro n cc queued inv _ _ bounded
    exact ⟨cc, by rw [filterChannel, if_neg (by omega)], by rwa [show nbSamples - n = 0 by omega]⟩
  | succ fuel ih =>
    intro n cc queued inv enough available bounded
    by_cases more : n < nbSamples
    · obtain ⟨cc₁, loaded, inUse, inv₁, acc₁⟩ :=
        nextPi_ready inv (show 0 < nbSamples - n by omega) enough available
      obtain ⟨cc₂, consumed, inv₂, acc₂⟩ := consumePi_ready inv₁ (min_le_right (nbSamples - n) cc₁.piSize)
      obtain ⟨cc', rest, inv'⟩ := ih (n + min (nbSamples - n) cc₁.piSize) cc₂ _ inv₂ (by omega)
        (fun before => by have := available before; omega) (by omega)
      refine ⟨cc', ?_, by rwa [show queued - min (nbSamples - n) cc₁.piSize -
        (nbSamples - (n + min (nbSamples - n) cc₁.piSize)) = queued - (nbSamples - n) by omega] at inv'⟩
      simp only [filterChannel, if_pos more, loaded]
      rw [if_neg (by omega), consumed]
      exact rest
    · exact ⟨cc, by rw [filterChannel, if_neg more], by rwa [show nbSamples - n = 0 by omega]⟩

theorem filterChannels_ready (eof : Bool) (nbSamples queued : Nat) (enough : nbSamples ≤ queued) :
    ∀ channels : List ChannelContext,
      (∀ cc ∈ channels, cc.Invariant eof queued ∧ (eof = false → nbSamples ≤ cc.acc)) →
      ∃ channels', filterChannels eof nbSamples channels = .ok channels' ∧
        channels'.length = channels.length ∧ ∀ cc ∈ channels', cc.Invariant eof (queued - nbSamples)
  | [], _ => ⟨[], rfl, rfl, by simp⟩
  | cc :: channels, ready => by
    obtain ⟨inv, available⟩ := ready cc (List.mem_cons_self _ _)
    obtain ⟨cc', looped, inv'⟩ := ChannelContext.filterChannel_ready eof nbSamples nbSamples 0 cc queued
      inv (by omega) (by simpa using available) (by omega)
    obtain ⟨channels', rest, length, invs⟩ := filterChannels_ready eof nbSamples queued enough channels
      (fun c mem => ready c (List.mem_cons_of_mem _ mem))
    refine ⟨cc' :: channels', ?_, by simp [length], ?_⟩
    · simp only [filterChannels, looped, rest]
      rfl
    · exact List.forall_mem_cons.mpr ⟨by simpa using inv', invs⟩

/-! ### Steps run on every channel -/

section EveryChannel

variable {α β : Type} (f : α → Except Failure β)

theorem mapM_ok_of_forall (P : α → Prop) (Q : β → Prop) (step : ∀ x, P x → ∃ y, f x = .ok y ∧ Q y) :
    ∀ xs : List α, (∀ x ∈ xs, P x) →
      ∃ ys, xs.mapM f = .ok ys ∧ ys.length = xs.length ∧ ∀ y ∈ ys, Q y
  | [], _ => ⟨[], rfl, rfl, by simp⟩
  | x :: xs, all => by
    obtain ⟨y, stepped, holds⟩ := step x (all x (List.mem_cons_self _ _))
    obtain ⟨ys, rest, length, holdsAll⟩ :=
      mapM_ok_of_forall P Q step xs (fun x' mem => all x' (List.mem_cons_of_mem _ mem))
    refine ⟨y :: ys, ?_, by simp [length], by simpa [holds] using holdsAll⟩
    rw [List.mapM_cons, stepped, rest]
    rfl

theorem mapM_ok_spec : ∀ {xs : List α} {ys : List β}, xs.mapM f = .ok ys →
    ys.length = xs.length ∧ ∀ y ∈ ys, ∃ x ∈ xs, f x = .ok y
  | [], ys, ran => by
    rw [List.mapM_nil] at ran
    cases ran
    simp
  | x :: xs, ys, ran => by
    rw [List.mapM_cons] at ran
    cases stepped : f x with
    | error failure => rw [stepped] at ran; cases ran
    | ok y =>
      cases rest : xs.mapM f with
      | error failure => rw [stepped, rest] at ran; cases ran
      | ok ys' =>
        rw [stepped, rest] at ran
        cases ran
        obtain ⟨length, results⟩ := mapM_ok_spec rest
        refine ⟨by simp [length], fun y' mem => ?_⟩
        rcases List.mem_cons.mp mem with rfl | later
        · exact ⟨x, List.mem_cons_self _ _, stepped⟩
        · obtain ⟨x', mem', stepped'⟩ := results y' later
          exact ⟨x', List.mem_cons_of_mem _ mem', stepped'⟩

theorem mapM_ne_error {failure : Failure} : ∀ {xs : List α}, (∀ x ∈ xs, f x ≠ .error failure) →
    xs.mapM f ≠ .error failure
  | [], _ => by simp [List.mapM_nil]; rintro ⟨⟩
  | x :: xs, never => by
    rw [List.mapM_cons]
    have rest := mapM_ne_error (fun x' mem => never x' (List.mem_cons_of_mem _ mem))
    cases stepped : f x with
    | error failure' =>
      have stops := never x (List.mem_cons_self _ _)
      rw [stepped] at stops
      intro failed
      cases failed
      exact stops rfl
    | ok y =>
      cases ran : xs.mapM f with
      | error failure' => rw [ran] at rest; exact rest
      | ok ys => rintro ⟨⟩

end EveryChannel

theorem le_availableLoop {eof : Bool} {m : Nat} (positive : 0 < m) :
    ∀ {channels : List ChannelContext} {least : Nat}, availableLoop eof least channels = .ok m →
      m ≤ least ∧ ∀ cc ∈ channels, ∃ samples, cc.getPiSamples eof = .ok samples ∧ m ≤ samples
  | [], least, ended => by cases ended; simp
  | cc :: channels, least, ended => by
    rw [availableLoop] at ended
    split_ifs at ended with going
    · split at ended
      · cases ended
      next samples read =>
        obtain ⟨fits, rest⟩ := le_availableLoop positive ended
        exact ⟨fits.trans (min_le_left _ _),
          List.forall_mem_cons.mpr ⟨⟨samples, read, fits.trans (min_le_right _ _)⟩, rest⟩⟩
    · cases ended; omega

theorem le_getPiSamples_of_availableSamples {eof : Bool} {m : Nat} (positive : 0 < m) :
    ∀ {channels : List ChannelContext}, availableSamples eof channels = .ok m →
      ∀ cc ∈ channels, ∃ samples, cc.getPiSamples eof = .ok samples ∧ m ≤ samples
  | [], available => by cases available; omega
  | cc :: channels, available => by
    rw [availableSamples] at available
    split at available
    · cases available
    next samples read =>
      obtain ⟨fits, rest⟩ := le_availableLoop positive available
      exact List.forall_mem_cons.mpr ⟨⟨samples, read, fits⟩, rest⟩

theorem availableSamples_error {eof : Bool} {failure : Failure} {channels : List ChannelContext}
    (fails : availableSamples eof channels = .error failure) :
    ∃ cc ∈ channels, cc.getPiSamples eof = .error failure := by
  have loop : ∀ {channels : List ChannelContext} {least : Nat},
      availableLoop eof least channels = .error failure →
        ∃ cc ∈ channels, cc.getPiSamples eof = .error failure := by
    intro channels
    induction channels with
    | nil => intro _ fails; cases fails
    | cons cc channels ih =>
      intro least fails
      rw [availableLoop] at fails
      split_ifs at fails
      split at fails
      next read => cases fails; exact ⟨cc, List.mem_cons_self _ _, read⟩
      next => obtain ⟨cc', mem, read⟩ := ih fails; exact ⟨cc', List.mem_cons_of_mem _ mem, read⟩
  cases channels with
  | nil => cases fails
  | cons cc channels =>
    rw [availableSamples] at fails
    split at fails
    next read => cases fails; exact ⟨cc, List.mem_cons_self _ _, read⟩
    next => obtain ⟨cc', mem, read⟩ := loop fails; exact ⟨cc', List.mem_cons_of_mem _ mem, read⟩

theorem le_foldl_min_piSize (m : Nat) :
    ∀ (channels : List ChannelContext) (least : Nat),
      m ≤ channels.foldl (fun least cc => min least cc.piSize) least ↔
        m ≤ least ∧ ∀ cc ∈ channels, m ≤ cc.piSize
  | [], least => by simp
  | cc :: channels, least => by
    rw [List.foldl_cons, le_foldl_min_piSize m channels, le_min_iff, List.forall_mem_cons, and_assoc]

theorem filterLinkChannels_ready (eof : Bool) (nbSamples fuel : Nat) :
    ∀ (n : Nat) (channels : List ChannelContext) (queued : Nat),
      (∀ cc ∈ channels, cc.Invariant eof queued ∧ (eof = false → nbSamples - n ≤ cc.acc)) →
      nbSamples - n ≤ queued → nbSamples - n ≤ fuel →
      ∃ channels', filterLinkChannels eof nbSamples fuel n channels = .ok channels' ∧
        channels'.length = channels.length ∧
        ∀ cc ∈ channels', cc.Invariant eof (queued - (nbSamples - n)) := by
  induction fuel with
  | zero =>
    intro n channels queued ready _ bounded
    refine ⟨channels, by rw [filterLinkChannels, if_neg (by omega)], rfl, fun cc mem => ?_⟩
    rw [show nbSamples - n = 0 by omega]
    exact (ready cc mem).1
  | succ fuel ih =>
    intro n channels queued ready enough bounded
    by_cases more : n < nbSamples
    · obtain ⟨channels₁, loaded, length₁, ready₁⟩ := mapM_ok_of_forall (ChannelContext.nextPi eof)
        (fun cc => cc.Invariant eof queued ∧ (eof = false → nbSamples - n ≤ cc.acc))
        (fun cc => 0 < cc.piSize ∧ cc.Invariant eof queued ∧ (eof = false → nbSamples - n ≤ cc.acc))
        (fun cc ⟨inv, available⟩ => by
          obtain ⟨cc', loaded, inUse, inv', acc'⟩ :=
            cc.nextPi_ready inv (show 0 < nbSamples - n by omega) enough available
          exact ⟨cc', loaded, inUse, inv', by rwa [acc']⟩)
        channels ready
      obtain ⟨size, sizeDef⟩ :
          ∃ size, channels₁.foldl (fun least cc => min least cc.piSize) (nbSamples - n) = size :=
        ⟨_, rfl⟩
      have minSize := fun m => le_foldl_min_piSize m channels₁ (nbSamples - n)
      rw [sizeDef] at minSize
      have positive := (minSize 1).mpr ⟨by omega, fun cc mem => (ready₁ cc mem).1⟩
      obtain ⟨atMost, fits⟩ := (minSize size).mp le_rfl
      obtain ⟨channels₂, consumed, length₂, ready₂⟩ := mapM_ok_of_forall (ChannelContext.consumePi size)
        (fun cc => cc.Invariant eof queued ∧ size ≤ cc.piSize ∧ (eof = false → nbSamples - n ≤ cc.acc))
        (fun cc => cc.Invariant eof (queued - size) ∧ (eof = false → nbSamples - n - size ≤ cc.acc))
        (fun cc ⟨inv, fitsOne, available⟩ => by
          obtain ⟨cc', consumed, inv', acc'⟩ := cc.consumePi_ready inv fitsOne
          exact ⟨cc', consumed, inv', fun before => by have := available before; omega⟩)
        channels₁ (fun cc mem => ⟨(ready₁ cc mem).2.1, fits cc mem, (ready₁ cc mem).2.2⟩)
      obtain ⟨channels', rest, length', invs⟩ := ih (n + size) channels₂ (queued - size)
        (fun cc mem => ⟨(ready₂ cc mem).1, fun before => by have := (ready₂ cc mem).2 before; omega⟩)
        (by omega) (by omega)
      refine ⟨channels', ?_, by rw [length', length₂, length₁], fun cc mem => ?_⟩
      · simp only [filterLinkChannels, if_pos more, loaded]
        rw [sizeDef, if_neg (by omega), consumed]
        exact rest
      · have := invs cc mem
        rwa [show queued - size - (nbSamples - (n + size)) = queued - (nbSamples - n) by omega] at this
    · refine ⟨channels, by rw [filterLinkChannels, if_neg more], rfl, fun cc mem => ?_⟩
      rw [show nbSamples - n = 0 by omega]
      exact (ready cc mem).1

/-- **Filtering a frame consumes it from every channel, linked or not.** When every
channel holds the frame's `nb_samples` and, before EOF, has them in `acc`, the filter
passes every `av_assert1` of `next_pi`, `consume_pi` and its loop, and every channel is
left with exactly `nb_samples` fewer unconsumed samples. -/
theorem filterChannelsOf_ready (link eof : Bool) (nbSamples queued : Nat) (enough : nbSamples ≤ queued)
    (channels : List ChannelContext)
    (ready : ∀ cc ∈ channels, cc.Invariant eof queued ∧ (eof = false → nbSamples ≤ cc.acc)) :
    ∃ channels', filterChannelsOf link eof nbSamples channels = .ok channels' ∧
      channels'.length = channels.length ∧ ∀ cc ∈ channels', cc.Invariant eof (queued - nbSamples) := by
  unfold filterChannelsOf
  cases link
  · exact filterChannels_ready eof nbSamples queued enough channels ready
  · simpa using filterLinkChannels_ready eof nbSamples nbSamples 0 channels queued
      (by simpa using ready) (by simpa using enough) (by simp)

end Librempeg.Avfilter.Speechnorm

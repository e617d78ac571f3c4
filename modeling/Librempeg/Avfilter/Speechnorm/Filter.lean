import Librempeg.Avfilter.Speechnorm.Consume

/-!
Contract: the filter of libavfilter/af_speechnorm.c as a state machine over its calls.
`filter_frame` outputs the head of its FIFO when every channel can give that frame's
samples, or at EOF; otherwise it moves the frames it takes from the input link into the
FIFO and analyses them. `activate` acknowledges EOF on the input. The frames' samples
enter only the analysis and the gains, so the FIFO keeps their sizes.

`link` is a runtime option (`AV_OPT_FLAG_RUNTIME_PARAM`), so every call carries its own
value. libavfilter reports EOF on an input only once the link's queue is empty, so after
EOF `filter_frame` finds no frame to take. How many of the queued frames one call takes is
left free.

Owns: the filter state, its events and runs; the filter invariant (every channel holds
the samples of the FIFO's frames, as `ChannelContext.Invariant` says); that every event
keeps it, overruns a ring, or overflows an `int` once a channel would hold more than
`INT_MAX` samples; that every frame output is consumed exactly from every channel; and a
run of one positive signal that overflows.

Does not own: the analysis and the consumption of one channel (`Speechnorm.Ring`,
`Speechnorm.Consume`).
-/

namespace Librempeg.Avfilter.Speechnorm

/-- An input frame of `nbChannels` planar channels, with the same number of samples in
each, at least one (`analyze_channel` reads `src[0]`) and at most `INT_MAX`
(`nb_samples` is an `int`). -/
structure Frame (nbChannels : Nat) where
  nbSamples : Nat
  samples : List (List ℚ)
  channels : samples.length = nbChannels
  lengths : ∀ src ∈ samples, src.length = nbSamples
  nonempty : 0 < nbSamples
  bounded : nbSamples ≤ intMax

/-- `for (int ch = 0; ch < inlink->ch_layout.nb_channels; ch++) s->analyze_channel(ctx, cc,
in->extended_data[ch], in->nb_samples)`. -/
def analyzeChannels (channels : List ChannelContext) (samples : List (List ℚ)) :
    Except Failure (List ChannelContext) :=
  (channels.zip samples).mapM fun channel => analyzeChannel channel.1 channel.2

/-- The fields of `SpeechNormalizerContext` the analysis and the consumption use: the
channels `cc`, the number of samples of each frame in `fifo`, and `eof`. -/
structure SpeechNormalizer where
  channels : List ChannelContext
  fifo : List Nat
  eof : Bool

namespace SpeechNormalizer

/-- After `config_input`: every channel fresh, the FIFO empty. -/
def initial (nbChannels : Nat) : SpeechNormalizer :=
  ⟨List.replicate nbChannels ChannelContext.initial, [], false⟩

/-- The first loop of `filter_frame`: the head of the FIFO is filtered and output unless
`available_samples` is below its size before EOF; `none` where the loop breaks. -/
def outputFrame (link : Bool) (s : SpeechNormalizer) : Option (Except Failure SpeechNormalizer) :=
  match s.fifo with
  | [] => none
  | nbSamples :: rest =>
      match availableSamples s.eof s.channels with
      | .error failure => some (.error failure)
      | .ok available =>
          if available < nbSamples ∧ s.eof = false then none
          else
            some ((filterChannelsOf link s.eof nbSamples s.channels).map fun channels =>
              { s with channels := channels, fifo := rest })

/-- The second loop of `filter_frame`: each frame taken from the input link is written to
the FIFO and analysed. -/
def receiveFrames {nbChannels : Nat} (s : SpeechNormalizer) :
    List (Frame nbChannels) → Except Failure SpeechNormalizer
  | [] => .ok s
  | frame :: frames =>
      match analyzeChannels s.channels frame.samples with
      | .error failure => .error failure
      | .ok channels =>
          receiveFrames { s with channels := channels, fifo := s.fifo ++ [frame.nbSamples] } frames

/-- `filter_frame(ctx)`, with `link` the option's value and `taken` the frames the call
takes from the input link. -/
def filterFrame {nbChannels : Nat} (link : Bool) (s : SpeechNormalizer)
    (taken : List (Frame nbChannels)) : Except Failure SpeechNormalizer :=
  match s.outputFrame link with
  | some output => output
  | none => s.receiveFrames taken

end SpeechNormalizer

/-- A call into the filter: `filter_frame` with the `link` option and the frames it takes
from the input link, or `activate` acknowledging EOF on the input. -/
inductive Event (nbChannels : Nat)
  | filterFrame (link : Bool) (taken : List (Frame nbChannels))
  | endOfStream

/-- The samples per channel of the frames a call takes from the input link. -/
def Event.samples {nbChannels : Nat} : Event nbChannels → Nat
  | .filterFrame _ taken => (taken.map Frame.nbSamples).sum
  | .endOfStream => 0

namespace SpeechNormalizer

variable {nbChannels : Nat}

/-- One call; after EOF the input link has no frame to give. -/
def step (s : SpeechNormalizer) : Event nbChannels → Except Failure SpeechNormalizer
  | .filterFrame link taken => s.filterFrame link (if s.eof then [] else taken)
  | .endOfStream => .ok { s with eof := true }

/-- A run of calls, stopped by the first failed `av_assert1`. -/
def run (s : SpeechNormalizer) : List (Event nbChannels) → Except Failure SpeechNormalizer
  | [] => .ok s
  | event :: events =>
      match s.step event with
      | .error failure => .error failure
      | .ok s => run s events

/-! ### The filter invariant -/

/-- Every channel holds the samples of the frames in the FIFO, as
`ChannelContext.Invariant` says. -/
structure Invariant (nbChannels : Nat) (s : SpeechNormalizer) : Prop where
  length : s.channels.length = nbChannels
  channels : ∀ cc ∈ s.channels, cc.Invariant s.eof s.fifo.sum

theorem invariant_initial : (initial nbChannels).Invariant nbChannels where
  length := List.length_replicate _ _
  channels cc mem := by
    rw [List.eq_of_mem_replicate mem]
    exact .inl pending_initial

end SpeechNormalizer

theorem analyzeChannels_pending {channels : List ChannelContext} {queued : Nat}
    (pendingAll : ∀ cc ∈ channels, cc.Pending queued) (frame : Frame nbChannels)
    (length : channels.length = nbChannels) :
    analyzeChannels channels frame.samples ≠ .error .assertion ∧
      (analyzeChannels channels frame.samples = .error .overflow → intMax < queued + frame.nbSamples) ∧
      ∀ channels', analyzeChannels channels frame.samples = .ok channels' →
        channels'.length = nbChannels ∧ ∀ cc ∈ channels', cc.Pending (queued + frame.nbSamples) := by
  have fromZip : ∀ channel ∈ channels.zip frame.samples,
      channel.1.Pending queued ∧ channel.2.length = frame.nbSamples := fun channel mem =>
    ⟨pendingAll _ (List.of_mem_zip mem).1, frame.lengths _ (List.of_mem_zip mem).2⟩
  have nonempty : ∀ channel ∈ channels.zip frame.samples, channel.2 ≠ [] := fun channel mem =>
    List.ne_nil_of_length_pos (by rw [(fromZip channel mem).2]; exact frame.nonempty)
  have analysed := fun channel mem =>
    analyzeChannel_pending (fromZip channel mem).1 (nonempty channel mem)
  refine ⟨mapM_ne_error _ fun channel mem => (analysed channel mem).1, fun overflows => ?_,
    fun channels' succeeded => ?_⟩
  · by_contra small
    refine mapM_ne_error _ (fun channel mem failed => small ?_) overflows
    rw [← (fromZip channel mem).2]
    exact (analysed channel mem).2.1 failed
  obtain ⟨length', results⟩ := mapM_ok_spec _ succeeded
  refine ⟨by rw [length', List.length_zip, length, frame.channels, min_self], fun cc mem => ?_⟩
  obtain ⟨channel, memZip, analysedOne⟩ := results cc mem
  rw [← (fromZip channel memZip).2]
  exact (analysed channel memZip).2.2 cc analysedOne

namespace SpeechNormalizer

variable {nbChannels : Nat} {s : SpeechNormalizer}

theorem pending_of_invariant {cc : ChannelContext} {queued : Nat} (inv : cc.Invariant false queued) :
    cc.Pending queued :=
  inv.resolve_right fun ⟨atEof, _⟩ => Bool.false_ne_true atEof

theorem receiveFrames_invariant (frames : List (Frame nbChannels)) :
    ∀ s : SpeechNormalizer, s.Invariant nbChannels → s.eof = false →
      s.receiveFrames frames ≠ .error .assertion ∧
        (s.receiveFrames frames = .error .overflow →
          intMax < s.fifo.sum + (frames.map Frame.nbSamples).sum) ∧
        ∀ s', s.receiveFrames frames = .ok s' → s'.Invariant nbChannels := by
  induction frames with
  | nil =>
    exact fun s inv _ => ⟨by simp [receiveFrames], by simp [receiveFrames],
      fun s' received => by cases received; exact inv⟩
  | cons frame frames ih =>
    intro s inv before
    have pendingAll : ∀ cc ∈ s.channels, cc.Pending s.fifo.sum := fun cc mem =>
      pending_of_invariant (before ▸ inv.channels cc mem)
    obtain ⟨safe, overflow, analysed⟩ := analyzeChannels_pending pendingAll frame inv.length
    simp only [receiveFrames, List.map_cons, List.sum_cons]
    split
    next failure failed =>
      refine ⟨fun same => safe ?_, fun overflows => ?_, fun _ absurd => by cases absurd⟩
      · cases same
        exact failed
      · cases overflows
        have := overflow failed
        omega
    next channels' succeeded =>
      obtain ⟨length', pending'⟩ := analysed channels' succeeded
      obtain ⟨safe', overflow', inv'⟩ :=
        ih { s with channels := channels', fifo := s.fifo ++ [frame.nbSamples] } ⟨length', fun cc mem => by
        simpa only [List.sum_append, List.sum_cons, List.sum_nil, Nat.add_zero] using
          Or.inl (pending' cc mem)⟩ before
      refine ⟨safe', fun overflows => ?_, inv'⟩
      have := overflow' overflows
      simp only [List.sum_append, List.sum_cons, List.sum_nil] at this
      omega

theorem outputFrame_invariant (inv : s.Invariant nbChannels) (link : Bool) (nbSamples : Nat)
    (rest : List Nat) (head : s.fifo = nbSamples :: rest) {available : Nat}
    (availableOk : availableSamples s.eof s.channels = .ok available)
    (guard : nbSamples ≤ available ∨ s.eof = true) :
    ∃ channels', filterChannelsOf link s.eof nbSamples s.channels = .ok channels' ∧
      channels'.length = nbChannels ∧ ∀ cc ∈ channels', cc.Invariant s.eof rest.sum := by
  have ready : ∀ cc ∈ s.channels,
      cc.Invariant s.eof (nbSamples + rest.sum) ∧ (s.eof = false → nbSamples ≤ cc.acc) := by
    intro cc mem
    have invOne := inv.channels cc mem
    rw [head, List.sum_cons] at invOne
    refine ⟨invOne, fun before => ?_⟩
    rcases Nat.eq_zero_or_pos nbSamples with empty | positive
    · omega
    · have fits := guard.resolve_right (by rw [before]; exact Bool.false_ne_true)
      obtain ⟨samples, read, atMost⟩ :=
        le_getPiSamples_of_availableSamples (positive.trans_le fits) availableOk cc mem
      rw [before] at read invOne
      rw [ChannelContext.getPiSamples_of_pending (pending_of_invariant invOne)] at read
      cases read
      omega
  obtain ⟨channels', filtered, length', invs⟩ :=
    filterChannelsOf_ready link s.eof nbSamples _ (Nat.le_add_right _ _) s.channels ready
  exact ⟨channels', filtered, length'.trans inv.length, by simpa using invs⟩

theorem outputFrame_ok (inv : s.Invariant nbChannels) (link : Bool)
    {output : Except Failure SpeechNormalizer} (outputs : s.outputFrame link = some output) :
    output ≠ .error .assertion ∧ (output = .error .overflow → intMax < s.fifo.sum) ∧
      ∀ s', output = .ok s' → s'.Invariant nbChannels := by
  unfold outputFrame at outputs
  split at outputs
  · cases outputs
  next nbSamples rest head =>
    split at outputs
    next failure fails =>
      cases outputs
      obtain ⟨cc, mem, read⟩ := availableSamples_error fails
      obtain ⟨rfl, past⟩ := ChannelContext.getPiSamples_overflow (inv.channels cc mem) read
      exact ⟨by simp, fun _ => past, fun _ absurd => by cases absurd⟩
    next available availableOk =>
      split at outputs
      · cases outputs
      next guard =>
        obtain ⟨channels', filtered, length', invs⟩ := outputFrame_invariant inv link nbSamples rest head
          availableOk (by rcases not_and_or.mp guard with fits | atEof
                          · exact .inl (not_lt.mp fits)
                          · exact .inr (by simpa using atEof))
        cases outputs
        refine ⟨by simp [filtered, Except.map], by simp [filtered, Except.map], fun s' same => ?_⟩
        simp only [filtered, Except.map, Except.ok.injEq] at same
        subst same
        exact ⟨length', invs⟩

/-- **One call keeps the invariant, or overruns a ring.** It overflows an `int` only when
the FIFO and the frames it takes hold more than `INT_MAX` samples. -/
theorem step_invariant (inv : s.Invariant nbChannels) (event : Event nbChannels) :
    s.step event ≠ .error .assertion ∧ (s.step event = .error .overflow → intMax < s.fifo.sum + event.samples) ∧
      ∀ s', s.step event = .ok s' → s'.Invariant nbChannels := by
  cases event with
  | filterFrame link taken =>
    simp only [step, filterFrame, Event.samples]
    split
    next output outputs =>
      obtain ⟨safe, overflow, inv'⟩ := outputFrame_ok inv link outputs
      exact ⟨safe, fun overflows => Nat.lt_add_right _ (overflow overflows), inv'⟩
    next =>
      cases eof : s.eof
      · simpa using receiveFrames_invariant taken s inv eof
      · exact ⟨by simp [receiveFrames], by simp [receiveFrames], fun s' received => by
          simp only [if_true, receiveFrames, Except.ok.injEq] at received
          exact received ▸ inv⟩
  | endOfStream =>
    refine ⟨by simp [step], by simp [step], fun s' stepped => ?_⟩
    cases stepped
    exact ⟨inv.length, fun cc mem => (inv.channels cc mem).imp id fun ⟨_, drained⟩ => ⟨rfl, drained⟩⟩

/-- **Every run keeps the invariant, or overruns a ring.** A run stops on an `int`
overflow only at a call that, from the state the calls before it reached, would leave a
channel more than `INT_MAX` samples. -/
theorem run_invariant (events : List (Event nbChannels)) :
    ∀ s : SpeechNormalizer, s.Invariant nbChannels →
      s.run events ≠ .error .assertion ∧
        (s.run events = .error .overflow → ∃ before event after s₁, events = before ++ event :: after ∧
          s.run before = .ok s₁ ∧ intMax < s₁.fifo.sum + event.samples) ∧
        ∀ s', s.run events = .ok s' → s'.Invariant nbChannels := by
  induction events with
  | nil => exact fun s inv => ⟨by simp [run], by simp [run], fun s' ran => by cases ran; exact inv⟩
  | cons event events ih =>
    intro s inv
    obtain ⟨safe, overflow, next⟩ := step_invariant inv event
    simp only [run]
    split
    next failure failed =>
      refine ⟨fun same => safe ?_, fun overflows => ?_, fun _ absurd => by cases absurd⟩
      · cases same
        exact failed
      · cases overflows
        exact ⟨[], event, events, s, rfl, rfl, overflow failed⟩
    next s₁ stepped =>
      obtain ⟨safe', overflow', inv'⟩ := ih s₁ (next s₁ stepped)
      refine ⟨safe', fun overflows => ?_, inv'⟩
      obtain ⟨before, event', after, s₂, split, reached, past⟩ := overflow' overflows
      refine ⟨event :: before, event', after, s₂, by rw [split]; rfl, ?_, past⟩
      simp only [run, stepped]
      exact reached

/-- **The filter consumes every frame it outputs, exactly.** Over every run of calls from
`config_input`'s state, with any channel count, frames, `link` values and EOF, no
`av_assert1` fails except `pi_end != cc->pi_start` in the analysis, and an `int`
overflows only at a call that would leave a channel more than `INT_MAX` samples. In the
state a run reaches, before EOF every channel's `acc` is its `pi_size` plus the sizes of
the closed periods queued; and when `filter_frame` passes the head frame of `nb_samples`
samples to `filter_channels` or `filter_link_channels`, every `next_pi`, `consume_pi` and
loop round passes its `av_assert1`, and every channel is left holding exactly the
samples of the frames after it. -/
theorem run_consumes_every_frame (events : List (Event nbChannels)) :
    (initial nbChannels).run events ≠ .error .assertion ∧
      ((initial nbChannels).run events = .error .overflow →
        ∃ before event after s, events = before ++ event :: after ∧
          (initial nbChannels).run before = .ok s ∧ intMax < s.fifo.sum + event.samples) ∧
      ∀ s, (initial nbChannels).run events = .ok s →
        (∀ cc ∈ s.channels, s.eof = false →
          cc.acc = cc.piSize + totalSize cc.queue ∧ ∀ item ∈ cc.queue, item.type = 1 ∧ 0 < item.size) ∧
        ∀ (link : Bool) (nbSamples : Nat) (rest : List Nat) (available : Nat),
          s.fifo = nbSamples :: rest → availableSamples s.eof s.channels = .ok available →
          (nbSamples ≤ available ∨ s.eof = true) →
          ∃ channels', filterChannelsOf link s.eof nbSamples s.channels = .ok channels' ∧
            ∀ cc ∈ channels', cc.Invariant s.eof rest.sum := by
  obtain ⟨safe, overflow, reached⟩ := run_invariant events (initial nbChannels) invariant_initial
  refine ⟨safe, overflow, fun s ran => ⟨fun cc mem before => ?_,
    fun link nbSamples rest available head availableOk guard => ?_⟩⟩
  · have pendingOne := pending_of_invariant (before ▸ (reached s ran).channels cc mem)
    exact ⟨pendingOne.acc_eq, pendingOne.closed_mem⟩
  · obtain ⟨channels', filtered, -, invs⟩ :=
      outputFrame_invariant (reached s ran) link nbSamples rest head availableOk guard
    exact ⟨channels', filtered, invs⟩

/-- `2^30` samples of `1.0` on one channel. -/
def positiveFrame : Frame 1 where
  nbSamples := 2 ^ 30
  samples := [List.replicate (2 ^ 30) 1]
  channels := rfl
  lengths _ mem := by rw [List.mem_singleton.mp mem, List.length_replicate]
  nonempty := by decide
  bounded := by decide

theorem run_filterFrame_of_empty {s : SpeechNormalizer} (empty : s.fifo = []) (before : s.eof = false)
    (link : Bool) (taken : List (Frame nbChannels)) :
    s.run [.filterFrame link taken] = s.receiveFrames taken := by
  simp only [run, step, filterFrame, outputFrame, empty, before, Bool.false_eq_true, if_false]
  cases s.receiveFrames taken <;> rfl

theorem receiveFrames_pair_error {s : SpeechNormalizer} {first second : Frame nbChannels}
    {channels : List ChannelContext} {failure : Failure}
    (analysedFirst : analyzeChannels s.channels first.samples = .ok channels)
    (analysedSecond : analyzeChannels channels second.samples = .error failure) :
    s.receiveFrames [first, second] = .error failure := by
  simp only [receiveFrames, analysedFirst, analysedSecond]

/-- **A signal that keeps its sign overflows.** Two frames of `2^30` samples of `1.0`,
taken by one call: the signal never changes sign, so the ring never closes a period and
fills no slot, and the open period reaches `2^31` samples: `new_size++` passes
`INT_MAX`. -/
theorem run_positive_signal_overflows :
    (initial 1).run [.filterFrame false [positiveFrame, positiveFrame]] = .error .overflow := by
  obtain ⟨cc, first, positive, -, size⟩ :=
    (analyzeChannel_positive ChannelContext.initial (.inr rfl) (2 ^ 30 - 1)).2 (by decide)
  have second := (analyzeChannel_positive cc (.inl positive) (2 ^ 30 - 1)).1 (by rw [size]; decide)
  rw [show 2 ^ 30 - 1 + 1 = 2 ^ 30 by decide] at first second
  have samples : positiveFrame.samples = [List.replicate (2 ^ 30) 1] := rfl
  have analysedFirst : analyzeChannels [ChannelContext.initial] positiveFrame.samples = .ok [cc] := by
    rw [samples, analyzeChannels, List.zip_cons_cons, List.zip_nil_left, List.mapM_cons, first]
    rfl
  have analysedSecond : analyzeChannels [cc] positiveFrame.samples = .error .overflow := by
    rw [samples, analyzeChannels, List.zip_cons_cons, List.zip_nil_left, List.mapM_cons]
    dsimp only
    rw [second]
    rfl
  rw [run_filterFrame_of_empty rfl rfl]
  exact receiveFrames_pair_error analysedFirst analysedSecond

end SpeechNormalizer

end Librempeg.Avfilter.Speechnorm

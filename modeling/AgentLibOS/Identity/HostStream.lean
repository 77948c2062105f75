import AgentLibOS.Identity.FrameUniqueness

namespace AgentLibOS.Identity
open Library.Framing Library.Run

/-! ## What a run writes -/

/-- So many frames were written between two states of the digest. -/
structure Wrote (frames : List Frame) (sink sink' : Sink) : Prop where
  written : sink'.written = sink.written ++ framesBytes frames
  fits : ∀ frame ∈ frames, frame.Fits

theorem Wrote.append {frames frames' : List Frame} {sink sink' sink'' : Sink}
    (first : Wrote frames sink sink') (second : Wrote frames' sink' sink'') :
    Wrote (frames ++ frames') sink sink'' where
  written := by
    rw [second.written, first.written, framesBytes, framesBytes, framesBytes, List.flatMap_append,
      List.append_assoc]
  fits := List.forall_mem_append.mpr ⟨first.fits, second.fits⟩

theorem consume_wrote {nodes bytes : Nat} {sink sink' : Sink}
    (done : consumeHostResultBudget nodes bytes sink = .ok sink') : Wrote [] sink sink' := by
  obtain ⟨_, _, done⟩ := bind_eq_ok.mp done
  cases done
  exact ⟨(List.append_nil _).symm, nofun⟩

theorem frame_wrote {frame : Frame} {sink sink' : Sink}
    (done : streamHostFrame frame sink = .ok sink') : Wrote [frame] sink sink' := by
  obtain ⟨sink₁, consumed, done⟩ := bind_eq_ok.mp done
  obtain ⟨_, fits, done⟩ := bind_eq_ok.mp done
  cases done
  have fits : frame.tag.length < 256 ∧ frame.payload.length < 256 ^ 8 := ensure_ok.mp fits
  refine ⟨?_, List.forall_mem_singleton.mpr fits⟩
  have same := (consume_wrote consumed).written
  rw [framesBytes, List.flatMap_nil, List.append_nil] at same
  rw [framesBytes, List.flatMap_singleton, ← same]

theorem single_wrote {frame : Frame} {sink sink' : Sink}
    (done : writeAll [consumeHostResultBudget 1 0, streamHostFrame frame] sink = .ok sink') :
    Wrote [frame] sink sink' := by
  obtain ⟨_, consumed, done⟩ := bind_eq_ok.mp done
  obtain ⟨_, framed, done⟩ := bind_eq_ok.mp done
  cases done
  exact (consume_wrote consumed).append (frame_wrote framed)

/-- What is written after two frames of a container. -/
theorem container_wrote {first second : Frame} {writers : List Writer} {sink sink' : Sink}
    (done : writeAll ([consumeHostResultBudget 1 0, streamHostFrame first,
      streamHostFrame second] ++ writers) sink = .ok sink') :
    ∃ middle, Wrote [first, second] sink middle ∧ writeAll writers middle = .ok sink' := by
  obtain ⟨_, consumed, done⟩ := bind_eq_ok.mp done
  obtain ⟨_, framed, done⟩ := bind_eq_ok.mp done
  obtain ⟨middle, counted, done⟩ := bind_eq_ok.mp done
  exact ⟨middle, ((consume_wrote consumed).append (frame_wrote framed)).append
    (frame_wrote counted), done⟩

section
variable {φ : Type} {types : HostTypes} {repr : φ → String}

/-- A run that returns has written the frames of the result. -/
def WritesFrames (types : HostTypes) (repr : φ → String) (value : HostValue φ) : Prop :=
  ∀ sink sink', streamHostResult types repr value sink = .ok sink' →
    ∃ frames, Streams types repr value frames ∧ Wrote frames sink sink'

theorem children_written {items : List (HostValue φ)}
    (each : ∀ item ∈ items, WritesFrames types repr item) {sink sink' : Sink}
    (done : writeAll (streamHostChildren types repr items) sink = .ok sink') :
    ∃ frames, StreamsAll types repr items frames ∧ Wrote frames sink sink' := by
  induction items generalizing sink with
  | nil =>
      cases done
      exact ⟨[], .nil, (List.append_nil _).symm, nofun⟩
  | cons item rest ih =>
      rw [List.forall_mem_cons] at each
      obtain ⟨middle, first, later⟩ := bind_eq_ok.mp done
      obtain ⟨frames, streams, wrote⟩ := each.1 _ _ first
      obtain ⟨frames', streams', wrote'⟩ := ih each.2 later
      exact ⟨frames ++ frames', .cons streams streams', wrote.append wrote'⟩

theorem named_written {label : String} {entries : List (String × HostValue φ)}
    (each : ∀ entry ∈ entries, WritesFrames types repr entry.2) {sink sink' : Sink}
    (done : writeAll ((entries.map fun entry =>
        (entry.1, streamHostResult types repr entry.2)).flatMap fun entry =>
      [streamHostFrame (framed label (utf8 entry.1)), entry.2]) sink = .ok sink') :
    ∃ frames, StreamsNamed types repr label entries frames ∧ Wrote frames sink sink' := by
  induction entries generalizing sink with
  | nil =>
      cases done
      exact ⟨[], .nil label, (List.append_nil _).symm, nofun⟩
  | cons entry rest ih =>
      obtain ⟨name, value⟩ := entry
      rw [List.forall_mem_cons] at each
      obtain ⟨_, named, done⟩ := bind_eq_ok.mp done
      obtain ⟨middle, first, later⟩ := bind_eq_ok.mp done
      obtain ⟨frames, streams, wrote⟩ := each.1 _ _ first
      obtain ⟨frames', streams', wrote'⟩ := ih each.2 later
      exact ⟨_, .cons streams streams', (frame_wrote named).append (wrote.append wrote')⟩

mutual

theorem result_written : ∀ value : HostValue φ, WritesFrames types repr value
  | .none, _, _, done => ⟨_, .none, single_wrote done⟩
  | .bool value, _, _, done => ⟨_, .bool value, single_wrote done⟩
  | .int value, _, _, done => ⟨_, .int value, single_wrote done⟩
  | .float value, _, _, done => ⟨_, .float value, single_wrote done⟩
  | .nonFinite, _, _, done => by
      obtain ⟨_, _, done⟩ := bind_eq_ok.mp done
      obtain ⟨_, raised, _⟩ := bind_eq_ok.mp done
      cases raised
  | .str text, _, _, done => ⟨_, .str text, single_wrote done⟩
  | .bytes mutable raw, _, _, done => ⟨_, .bytes mutable raw, single_wrote done⟩
  | .enum type value, _, _, done => by
      obtain ⟨middle, consumed, done⟩ := bind_eq_ok.mp done
      obtain ⟨_, framed, done⟩ := bind_eq_ok.mp done
      cases done
      unfold streamHostEnum at framed
      by_cases owned : types.enums type = true
      · rw [if_neg (not_not_intro owned)] at framed
        cases value with
        | some value => exact ⟨_, .enum type value, (consume_wrote consumed).append (frame_wrote framed)⟩
        | none => cases framed
      · rw [if_pos owned] at framed
        cases framed
  | .list items, _, _, done => by
      rw [streamHostResult] at done
      obtain ⟨middle, wrote, done⟩ := container_wrote done
      obtain ⟨frames, streams, wrote'⟩ := children_written (items_written items) done
      exact ⟨_, .list streams, wrote.append wrote'⟩
  | .tuple items, _, _, done => by
      rw [streamHostResult] at done
      obtain ⟨middle, wrote, done⟩ := container_wrote done
      obtain ⟨frames, streams, wrote'⟩ := children_written (items_written items) done
      exact ⟨_, .tuple streams, wrote.append wrote'⟩
  | .dict entries, _, _, done => by
      rw [streamHostResult] at done
      obtain ⟨middle, wrote, done⟩ := container_wrote done
      rw [streamHostEntries_map, sortedByKey_map] at done
      have each : ∀ entry ∈ sortedByKey entries, WritesFrames types repr entry.2 :=
        fun entry inside => entries_written entries entry ((sortedByKey_perm entries).mem_iff.mp inside)
      obtain ⟨frames, streams, wrote'⟩ := named_written each done
      exact ⟨_, .dict streams, wrote.append wrote'⟩
  | .dataclass identity storage, _, _, done => by
      rw [streamHostResult] at done
      obtain ⟨_, consumed, done⟩ := bind_eq_ok.mp done
      obtain ⟨written, bound, done⟩ := bind_eq_ok.mp done
      rw [streamHostEntries_map] at bound
      obtain ⟨fields, known, rfl, inside⟩ := hostDataclassFields_map bound
      obtain ⟨_, framed, done⟩ := bind_eq_ok.mp done
      have each : ∀ field ∈ fields, WritesFrames types repr field.2 :=
        fun field listed => entries_written storage field (inside field listed)
      obtain ⟨frames, streams, wrote⟩ := named_written each done
      exact ⟨_, .dataclass known streams,
        (consume_wrote consumed).append ((frame_wrote framed).append wrote)⟩

theorem items_written : ∀ items : List (HostValue φ), ∀ item ∈ items, WritesFrames types repr item
  | [] => nofun
  | item :: rest => List.forall_mem_cons.mpr ⟨result_written item, items_written rest⟩

theorem entries_written : ∀ entries : List (String × HostValue φ), ∀ entry ∈ entries,
    WritesFrames types repr entry.2
  | [] => nofun
  | (_, value) :: rest => List.forall_mem_cons.mpr ⟨result_written value, entries_written rest⟩

end

/-- Results with one byte sequence are the same, and no sequence properly begins another. -/
theorem host_result_identity_unique (exact_repr : Function.Injective repr)
    {value value' : HostValue φ} {bytes bytes' : List UInt8}
    (done : hostResultBytes types repr value = .ok bytes)
    (done' : hostResultBytes types repr value' = .ok bytes') :
    (bytes = bytes' → Same types value value') ∧ (bytes <+: bytes' → bytes = bytes') := by
  obtain ⟨sink, run, rfl⟩ := map_eq_ok.mp done
  obtain ⟨sink', run', rfl⟩ := map_eq_ok.mp done'
  obtain ⟨frames, streams, wrote⟩ := result_written value _ _ run
  obtain ⟨frames', streams', wrote'⟩ := result_written value' _ _ run'
  rw [wrote.written, wrote'.written, List.nil_append, List.nil_append]
  have whole (le : framesBytes frames <+: framesBytes frames') :
      Same types value value' ∧ framesBytes frames = framesBytes frames' := by
    obtain ⟨rest, same⟩ := frames_prefix wrote.fits wrote'.fits le
    rw [← List.append_nil frames'] at same
    obtain ⟨equal, rfl⟩ := streams_unique exact_repr streams streams' same
    rw [List.append_nil, List.append_nil] at same
    exact ⟨equal, congrArg framesBytes same⟩
  exact ⟨fun same => (whole (same ▸ List.prefix_refl _)).1, fun le => (whole le).2⟩

end

/-- The text of a float that is a small integer. -/
def integralRepr (value : Int) : String := value.repr ++ ".0"

theorem integralRepr_injective : Function.Injective integralRepr := by
  intro left right same
  have lists := congrArg String.toList same
  rw [integralRepr, integralRepr, String.toList_append, String.toList_append] at lists
  exact Int.repr_injective (String.toList_inj.mp (List.append_cancel_right lists))

def noTypes : HostTypes := ⟨fun _ => false, fun _ => none⟩

def payloadBytes : List UInt8 :=
  framesBytes [framed "list" [], framed "length" (utf8 "2"), framed "float" (utf8 "7.0"),
    framed "bytes" [1, 2]]

theorem payload_written (mutable : Bool) :
    hostResultBytes noTypes integralRepr (.list [.float 7, .bytes mutable [1, 2]]) =
      .ok payloadBytes := by
  cases mutable <;> decide +kernel

theorem host_result_identity_unique_payload :
    hostResultBytes noTypes integralRepr (.list [.float 7, .bytes false [1, 2]]) =
        .ok payloadBytes ∧
      Same noTypes (.list [.float (7 : Int), .bytes false [1, 2]])
        (.list [.float 7, .bytes true [1, 2]]) :=
  ⟨payload_written false, (host_result_identity_unique integralRepr_injective
    (payload_written false) (payload_written true)).1 rfl⟩

end AgentLibOS.Identity

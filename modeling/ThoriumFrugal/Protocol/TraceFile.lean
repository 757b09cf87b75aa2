import ThoriumFrugal.Lib.Frames
import ThoriumFrugal.Lib.Whitespace
import ThoriumFrugal.Protocol.JsonRoundTrip

/-!
# Trace files

The file of a recorder with a `trace_file_path`: one line of JSON for each recorded envelope, read
back as `from_json(line).to_dict()` line by line. A text file gives back the newlines that were
written to it. The file keeps every envelope ever recorded, `clear` or not.
-/

namespace ThoriumFrugal.Protocol

open Lib

/-! ## Texts without control characters -/

namespace Json

variable {readFloat : ReadFloat} {s t r : Text}

/-- The text has no control character, so no end of a line either. -/
def Printable (s : Text) : Prop := ∀ c ∈ s, 32 ≤ c.toNat

instance (s : Text) : Decidable (Printable s) := List.decidableBAll _ s

/-- The empty text. -/
theorem printable_nil : Printable [] := fun _ hc => absurd hc List.not_mem_nil

/-- Two printable texts make one. -/
theorem Printable.append (hs : Printable s) (ht : Printable t) : Printable (s ++ t) :=
  fun c hc => (List.mem_append.mp hc).elim (hs c) (ht c)

/-- So do a printable character and a printable text. -/
theorem Printable.cons {c : Char} (hc : 32 ≤ c.toNat) (hs : Printable s) : Printable (c :: s) :=
  List.forall_mem_cons.mpr ⟨hc, hs⟩

/-- A newline is not printable. -/
theorem Printable.newline_not_mem (h : Printable s) : '\n' ∉ s := fun hmem =>
  absurd (h '\n' hmem) (by decide)

/-- Digits are printable. -/
theorem printable_of_isDigit (h : ∀ c ∈ s, c.isDigit = true) : Printable s := by
  intro c hc
  have hdigit := h c hc
  unfold Char.isDigit at hdigit
  have hle : 48 ≤ c.toNat := of_decide_eq_true (Bool.and_eq_true_iff.mp hdigit).1
  omega

theorem printable_takeWhile_isDigit (s : Text) : Printable (s.takeWhile Char.isDigit) :=
  printable_of_isDigit fun _ hc => List.mem_takeWhile_imp hc

/-! ### Strings -/

/-- So are hexadecimal digits. -/
theorem printable_digitChar {d : ℕ} (h : d < 16) : 32 ≤ (Nat.digitChar d).toNat := by
  revert d
  decide

/-- An escaped code unit is printable. -/
theorem printable_escapeUnit (n : ℕ) : Printable (escapeUnit n) := by
  have hlt : ∀ m, m % 16 < 16 := fun m => Nat.mod_lt m (by omega)
  refine Printable.append (by decide) ?_
  intro c hc
  simp only [List.mem_cons, List.not_mem_nil, or_false] at hc
  rcases hc with rfl | rfl | rfl | rfl
  all_goals exact printable_digitChar (hlt _)

/-- So is what is written for any character. -/
theorem printable_asciiChar (c : Char) : Printable (asciiChar c) := by
  unfold asciiChar
  split
  · decide
  split
  · decide
  split
  · decide
  split
  · decide
  split
  · decide
  split
  · decide
  split
  · decide
  split
  · next h => exact List.forall_mem_singleton.mpr h.1
  split
  · exact printable_escapeUnit _
  · exact (printable_escapeUnit _).append (printable_escapeUnit _)

/-- So is a quoted string, whatever it holds. -/
theorem printable_quoteWith (s : String) : Printable (quoteWith asciiChar s) := by
  refine Printable.cons (by decide) (Printable.append ?_ (by decide))
  intro c hc
  obtain ⟨d, -, hmem⟩ := List.mem_flatMap.mp hc
  exact printable_asciiChar d c hmem

/-! ### Numbers -/

/-- What is read as a number without its sign is printable. -/
theorem printable_scanNatural (h : scanNatural s = some (t, r)) : s = t ++ r ∧ Printable t := by
  unfold scanNatural at h
  split at h
  · obtain ⟨rfl, rfl⟩ := Prod.mk.inj (Option.some.inj h)
    exact ⟨rfl, by decide⟩
  · next c rest _ =>
    split at h
    · -- a first digit and those behind it
      next hdigit =>
      obtain ⟨rfl, rfl⟩ := Prod.mk.inj (Option.some.inj h)
      have htake : Printable ([c] ++ rest.takeWhile Char.isDigit) :=
        (printable_of_isDigit (List.forall_mem_singleton.mpr hdigit)).append
          (printable_takeWhile_isDigit rest)
      exact ⟨by rw [List.cons_append, List.takeWhile_append_dropWhile], htake⟩
    · cases h
  · cases h

/-- So is what is read as an integer. -/
theorem printable_scanInteger (h : scanInteger s = some (t, r)) : s = t ++ r ∧ Printable t := by
  unfold scanInteger at h
  split at h
  · rw [Option.map_eq_some_iff] at h
    obtain ⟨⟨t', r'⟩, hnat, heq⟩ := h
    obtain ⟨rfl, rfl⟩ := Prod.mk.inj heq
    obtain ⟨rfl, hprintable⟩ := printable_scanNatural hnat
    exact ⟨rfl, hprintable.cons (by decide)⟩
  · exact printable_scanNatural h

/-- So is a fraction. -/
theorem printable_scanFraction (s : Text) :
    s = (scanFraction s).1 ++ (scanFraction s).2 ∧ Printable (scanFraction s).1 := by
  unfold scanFraction
  split
  · next r =>
    split
    · exact ⟨rfl, printable_nil⟩
    · refine ⟨?_, (printable_takeWhile_isDigit r).cons (by decide)⟩
      rw [List.cons_append, List.takeWhile_append_dropWhile]
  · exact ⟨rfl, printable_nil⟩

/-- So is the sign of an exponent. -/
theorem printable_scanSign (s : Text) :
    s = (scanSign s).1 ++ (scanSign s).2 ∧ Printable (scanSign s).1 := by
  unfold scanSign
  split
  · exact ⟨rfl, printable_nil.cons (by decide)⟩
  · exact ⟨rfl, printable_nil.cons (by decide)⟩
  · exact ⟨rfl, printable_nil⟩

/-- So is an exponent. -/
theorem printable_scanExponent (s : Text) :
    s = (scanExponent s).1 ++ (scanExponent s).2 ∧ Printable (scanExponent s).1 := by
  unfold scanExponent
  split
  · exact ⟨rfl, printable_nil⟩
  · next c r =>
    obtain ⟨hsign, hprintable⟩ := printable_scanSign r
    split
    · next hexp =>
      -- the `e` itself
      have hhead : 32 ≤ c.toNat := by
        rcases hexp with rfl | rfl
        all_goals decide
      simp only
      split
      · exact ⟨rfl, printable_nil⟩
      · refine ⟨?_, (hprintable.append (printable_takeWhile_isDigit _)).cons hhead⟩
        rw [List.cons_append, List.append_assoc, List.takeWhile_append_dropWhile, ← hsign]
    · exact ⟨rfl, printable_nil⟩

/-- A text that is a number, all of it. -/
theorem printable_of_scanNumber {v : Json} (h : scanNumber readFloat s = some (pure (v, []))) :
    Printable s := by
  unfold scanNumber at h
  rw [Option.map_eq_some_iff] at h
  obtain ⟨⟨integer, r⟩, hinteger, hread⟩ := h
  obtain ⟨rfl, hprintable⟩ := printable_scanInteger hinteger
  obtain ⟨hfraction, hprintable'⟩ := printable_scanFraction r
  obtain ⟨hexponent, hprintable''⟩ := printable_scanExponent (scanFraction r).2
  -- nothing is left behind the number
  have hrest : (scanExponent (scanFraction r).2).2 = [] := by
    simp only at hread
    split at hread
    · exact (Prod.mk.inj (Except.ok.inj (Option.some.inj hread))).2
    · split at hread
      · exact (Prod.mk.inj (Except.ok.inj (Option.some.inj hread))).2
      · cases hread
  rw [hrest, List.append_nil] at hexponent
  rw [hfraction]
  exact hprintable.append (hprintable'.append (hexponent ▸ hprintable''))

/-! ### Values -/

/-- Printable texts are printable with commas between them. -/
theorem printable_join {ts : List Text} (h : ∀ t ∈ ts, Printable t) :
    Printable (Text.join ", ".toList ts) := by
  intro c hc
  by_contra hcontrol
  have hsep : c ∉ ", ".toList := fun hmem =>
    hcontrol ((by decide : Printable ", ".toList) c hmem)
  exact Text.not_mem_join hsep (fun t ht hmem => hcontrol (h t ht c hmem)) hc

/-- The text of a readable value is printable. The induction is over the value: a float is the text
that was read for it. -/
theorem printable_textWith {v : Json} (hv : v.Readable readFloat) :
    Printable (textWith asciiChar [' '] v) := by
  induction v using Json.induction with
  | null => decide
  | bool b => cases b <;> decide
  | int n => exact printable_of_scanNumber (@scanNumber_signedDigits readFloat n)
  | float value repr => exact printable_of_scanNumber hv
  | str s => exact printable_quoteWith s
  | arr items ih =>
    rw [textWith, textsWith_eq_map]
    -- between the brackets stand items and commas
    refine Printable.cons (by decide) (Printable.append (printable_join ?_) (by decide))
    intro t ht
    obtain ⟨item, hitem, rfl⟩ := List.mem_map.mp ht
    exact ih item hitem (readableItems_iff.mp hv item hitem)
  | obj entries ih =>
    rw [textWith, entryTextsWith_eq_map]
    -- between the braces stand keys, colons and values
    refine Printable.cons (by decide) (Printable.append (printable_join ?_) (by decide))
    intro t ht
    obtain ⟨entry, hentry, rfl⟩ := List.mem_map.mp ht
    have hvalue := ih entry hentry (readableEntries_iff.mp hv.2 entry hentry)
    exact ((printable_quoteWith entry.1).append (by decide)).append hvalue

/-- So a line of the file holds no newline within the event. -/
theorem printable_dumpsAscii {v : Json} (hv : v.Readable readFloat) : Printable (dumpsAscii v) := by
  unfold dumpsAscii
  rw [asciiText_eq_textWith]
  exact printable_textWith (readable_sorted hv)

end Json

/-! ## The recorder -/

/-- A recorder and the text of its trace file. -/
structure TraceRecorder where
  recorder : EventRecorder := {}
  file : Text := []

namespace TraceRecorder

open MessageEnvelope (Decode)

/-- `record_envelope`; the file is opened for appending. -/
def recordEnvelope (t : TraceRecorder) (envelope : MessageEnvelope) : TraceRecorder :=
  { recorder := t.recorder.recordEnvelope envelope
    file := t.file ++ frame '\n' (Json.dumpsAscii envelope.toDict) }

/-- `clear` does not touch the file. -/
def clear (t : TraceRecorder) : TraceRecorder := { t with recorder := t.recorder.clear }

/-- A new recorder with the same `trace_file_path`. -/
def reopen (t : TraceRecorder) : TraceRecorder := { t with recorder := {} }

/-! ## Reading -/

/-- The events in a trace file; a line of which nothing is left by `strip` is none. -/
def readEvents (readFloat : Json.ReadFloat) (file : Text) : Decode (List Json) :=
  ((lines '\n' file).filter fun line => Text.strip line ≠ []).mapM fun line => do
    let envelope ← MessageEnvelope.fromJson readFloat line
    return envelope.toDict

/-! ## Runs -/

/-- The calls on a recorder. -/
inductive Step
  | recordEnvelope (envelope : MessageEnvelope)
  | clear
  | reopen

/-- What a call does to the recorder and to its file. -/
def step (t : TraceRecorder) : Step → TraceRecorder
  | .recordEnvelope envelope => t.recordEnvelope envelope
  | .clear => t.clear
  | .reopen => t.reopen

/-- The recorder and the file, which is new, after the steps. -/
def after (steps : List Step) : TraceRecorder := run step {} steps

/-- The envelope that a step records. -/
def Step.envelope? : Step → Option MessageEnvelope
  | .recordEnvelope envelope => some envelope
  | .clear => none
  | .reopen => none

/-- All envelopes that were recorded. -/
def recorded (steps : List Step) : List MessageEnvelope := steps.filterMap Step.envelope?

variable {steps : List Step} {readFloat : Json.ReadFloat}

/-- A call adds the envelope that it records. -/
theorem recorded_concat (steps : List Step) (x : Step) :
    recorded (steps ++ [x]) = recorded steps ++ x.envelope?.toList := by
  unfold recorded
  rw [List.filterMap_append]
  cases x <;> rfl

/-- The file holds a line for every recorded envelope. -/
theorem file_after (steps : List Step) : (after steps).file
    = framed '\n' ((recorded steps).map fun e => Json.dumpsAscii e.toDict) := by
  induction steps using List.reverseRecOn with
  | nil => rfl
  | append_singleton steps x ih =>
    -- only a recorded envelope adds a line
    have hstep : (after (steps ++ [x])).file
        = (after steps).file ++ framed '\n'
          (x.envelope?.toList.map fun e => Json.dumpsAscii e.toDict) := by
      unfold after
      rw [run_concat]
      cases x with
      | recordEnvelope envelope => simp [step, recordEnvelope, Step.envelope?, framed]
      | clear => simp [step, clear, Step.envelope?, framed]
      | reopen => simp [step, reopen, Step.envelope?, framed]
    rw [hstep, ih, recorded_concat, List.map_append, framed, framed, framed, List.flatMap_append]

/-- In memory are the last of the envelopes in the file. -/
theorem exists_suffix_recordedEvents (steps : List Step) :
    ∃ es, es <:+ recorded steps
      ∧ (after steps).recorder.recordedEvents = es.map MessageEnvelope.toDict := by
  induction steps using List.reverseRecOn with
  | nil => exact ⟨[], List.nil_suffix, rfl⟩
  | append_singleton steps x ih =>
    obtain ⟨es, ⟨past, hpast⟩, hevents⟩ := ih
    unfold after at hevents ⊢
    rw [run_concat, recorded_concat]
    cases x with
    | recordEnvelope envelope =>
      refine ⟨es ++ [envelope], ⟨past, ?_⟩, ?_⟩
      · -- what was cleared before stays cleared
        rw [← List.append_assoc, hpast]
        rfl
      · show (run step {} steps).recorder.recordedEvents ++ [envelope.toDict] = _
        rw [hevents, List.map_append, List.map_singleton]
    | clear => exact ⟨[], List.nil_suffix, rfl⟩
    | reopen => exact ⟨[], List.nil_suffix, rfl⟩

/-! ## The file read back -/

/-- A line of the file. -/
theorem fromJson_line {e : MessageEnvelope} (h : e.payload.Readable readFloat) :
    MessageEnvelope.fromJson readFloat (frame '\n' (Json.dumpsAscii e.toDict))
      = pure e.sortPayload := by
  unfold MessageEnvelope.fromJson frame
  rw [Json.loads_dumpsAscii_line (MessageEnvelope.readable_toDict h), pure_bind,
    MessageEnvelope.fromDict_sorted]

/-- No line is blank: it begins with a brace. -/
theorem strip_line_ne_nil (e : MessageEnvelope) :
    Text.strip (frame '\n' (Json.dumpsAscii e.toDict)) ≠ [] := by
  have hbrace : '\x7b' ∈ frame '\n' (Json.dumpsAscii e.toDict) := List.mem_cons_self
  exact Text.strip_ne_nil_of_mem hbrace (by decide)

/-- A file with the texts of envelopes as its lines is read as these envelopes, with their payloads
in order. -/
theorem readEvents_framed {es : List MessageEnvelope}
    (h : ∀ e ∈ es, e.payload.Readable readFloat) :
    readEvents readFloat (framed '\n' (es.map fun e => Json.dumpsAscii e.toDict))
      = pure (es.map fun e => e.sortPayload.toDict) := by
  -- no line is cut by a newline of its event
  have hlines : ∀ m ∈ es.map fun e => Json.dumpsAscii e.toDict, '\n' ∉ m := by
    intro m hm
    obtain ⟨e, he, rfl⟩ := List.mem_map.mp hm
    have hreadable := MessageEnvelope.readable_toDict (h e he)
    exact (Json.printable_dumpsAscii hreadable).newline_not_mem
  -- and none is skipped as blank
  have hfilter : ((es.map fun e => Json.dumpsAscii e.toDict).map (frame '\n')).filter
        (fun line => Text.strip line ≠ [])
      = es.map fun e => frame '\n' (Json.dumpsAscii e.toDict) := by
    rw [List.map_map]
    refine List.filter_eq_self.mpr fun line hline => ?_
    obtain ⟨e, -, rfl⟩ := List.mem_map.mp hline
    exact decide_eq_true (strip_line_ne_nil e)
  unfold readEvents
  rw [lines_framed hlines, hfilter, List.mapM_map]
  refine MessageEnvelope.mapM_eq_pure fun e he => ?_
  rw [Function.comp_apply, fromJson_line (h e he), pure_bind]

/-- The file of a recorder is read as what was recorded. -/
theorem readEvents_file (h : ∀ e ∈ recorded steps, e.payload.Readable readFloat) :
    readEvents readFloat (after steps).file
      = pure ((recorded steps).map fun e => e.sortPayload.toDict) := by
  rw [file_after, readEvents_framed h]

/-- The file gives back every envelope that was ever recorded, with its payload in order, and the
recorder has the last of them. -/
theorem readEvents_after (h : ∀ e ∈ recorded steps, e.payload.Readable readFloat) :
    readEvents readFloat (after steps).file
        = pure ((recorded steps).map fun e => e.sortPayload.toDict)
      ∧ ∃ es, es <:+ recorded steps
        ∧ (after steps).recorder.recordedEvents = es.map MessageEnvelope.toDict :=
  ⟨readEvents_file h, exists_suffix_recordedEvents steps⟩

/-- A hello is recorded and cleared, and a new recorder goes on with an observation. -/
def interrupted : List Step :=
  [.recordEnvelope { ProtocolValidator.sample .sessionHello "s" 1 0 with
      payload := .obj [("auth_token", .str "mock_secret_token")] },
    .clear, .reopen, .recordEnvelope MessageEnvelope.rated]

/-- The payloads of the sample read back. -/
theorem readable_interrupted :
    ∀ e ∈ recorded interrupted, e.payload.Readable MessageEnvelope.readHalf := by
  refine List.forall_mem_cons.mpr ⟨?_, ?_⟩
  · exact ⟨by decide, trivial, trivial⟩
  · exact List.forall_mem_singleton.mpr MessageEnvelope.readable_rated

/-- A recorder that is cleared and goes on recording. -/
theorem readEvents_interrupted :
    readEvents MessageEnvelope.readHalf (after interrupted).file
        = pure ((recorded interrupted).map fun e => e.sortPayload.toDict)
      ∧ ∃ es, es <:+ recorded interrupted
        ∧ (after interrupted).recorder.recordedEvents = es.map MessageEnvelope.toDict :=
  readEvents_after readable_interrupted

end TraceRecorder
end ThoriumFrugal.Protocol

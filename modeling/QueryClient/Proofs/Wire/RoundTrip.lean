/-
  QueryClient/Proofs/Wire/RoundTrip.lean
  ======================================
  **Messages come back from their bytes**, and their sizes are known before they are
  written. For each message type the fields are put together in the order in which they
  are written; the message in between has the fields so far and defaults in the others.

  Messages are nested four deep. The reader counts the nesting down from its limit, so
  each type is read at any depth that leaves room for the types inside it.
-/
import QueryClient.Proofs.Wire.Field
import QueryClient.Wire.Envelope

namespace QueryClient.Wire

open MessageType

/-- What is written for a message is as long as computed, and is read as that message.
    Lengths have 64 bits in the format, so it has no bytes for a message of 2^64 bytes or
    more, and no memory holds one. -/
structure MessageType.RoundTrips {M : Type} (t : MessageType M) (encode : M → Bytes)
    (size : M → Nat) : Prop where
  length_encode : ∀ m, (encode m).length = size m
  decode_encode : ∀ m, (encode m).length < 2 ^ 64 → t.decode (encode m) = .ok m

/-! ### Files -/

namespace File

theorem length_encode (f : File) : f.encode.length = f.size := by
  simp only [encode, size, List.length_append, length_textField, length_bytesField]

theorem builds_encode (depth : Nat) (f : File) (h : f.encode.length < 2 ^ 64) :
    type.Builds depth type.empty f.encode f := by
  obtain ⟨name, contents⟩ := f
  simp only [encode, List.length_append] at h
  have hname : type.Builds depth ⟨"", []⟩ (textField 1 name) ⟨name, []⟩ :=
    builds_textField (by decide) rfl rfl rfl (by omega)
  have hcontents : type.Builds depth ⟨name, []⟩ (bytesField 2 contents) ⟨name, contents⟩ :=
    builds_bytesField (by decide) rfl rfl rfl (by omega)
  exact hname.append hcontents

end File

/-! ### Type names -/

namespace Identifier

theorem length_encode (i : Identifier) : i.encode.length = i.size := by
  simp only [encode, size, List.length_append, length_textField]

theorem builds_encode (depth : Nat) (i : Identifier) (h : i.encode.length < 2 ^ 64) :
    type.Builds depth type.empty i.encode i := by
  obtain ⟨catalog, schema, name⟩ := i
  simp only [encode, List.length_append] at h
  have hcatalog : type.Builds depth ⟨"", "", ""⟩ (textField 1 catalog) ⟨catalog, "", ""⟩ :=
    builds_textField (by decide) rfl rfl rfl (by omega)
  have hschema : type.Builds depth ⟨catalog, "", ""⟩ (textField 2 schema) ⟨catalog, schema, ""⟩ :=
    builds_textField (by decide) rfl rfl rfl (by omega)
  have hname : type.Builds depth ⟨catalog, schema, ""⟩ (textField 3 name) ⟨catalog, schema, name⟩ :=
    builds_textField (by decide) rfl rfl rfl (by omega)
  exact (hcatalog.append hschema).append hname

end Identifier

/-! ### Columns -/

namespace Column

theorem length_encode (c : Column) : c.encode.length = c.size := by
  simp only [encode, size, List.length_append, length_textField, length_boolField,
    length_int32Field, length_optional Identifier.length_encode]

theorem builds_encode (depth : Nat) (c : Column) (h : c.encode.length < 2 ^ 64) :
    type.Builds (depth + 1) type.empty c.encode c := by
  obtain ⟨name, notNull, isArray, type?, arrayDims⟩ := c
  simp only [encode, List.length_append] at h
  have hname : type.Builds (depth + 1) ⟨"", false, false, none, 0⟩ (textField 1 name)
      ⟨name, false, false, none, 0⟩ :=
    builds_textField (by decide) rfl rfl rfl (by omega)
  have hnotNull : type.Builds (depth + 1) ⟨name, false, false, none, 0⟩ (boolField 3 notNull)
      ⟨name, notNull, false, none, 0⟩ :=
    builds_boolField (by decide) rfl rfl rfl
  have hisArray : type.Builds (depth + 1) ⟨name, notNull, false, none, 0⟩ (boolField 4 isArray)
      ⟨name, notNull, isArray, none, 0⟩ :=
    builds_boolField (by decide) rfl rfl rfl
  have htype : type.Builds (depth + 1) ⟨name, notNull, isArray, none, 0⟩
      (type?.elim [] fun i => delimited 12 i.encode) ⟨name, notNull, isArray, type?, 0⟩ :=
    builds_optional (by decide) rfl rfl (Identifier.builds_encode depth) (by cases type? <;> rfl)
      (by omega)
  have harrayDims : type.Builds (depth + 1) ⟨name, notNull, isArray, type?, 0⟩
      (int32Field 17 arrayDims) ⟨name, notNull, isArray, type?, arrayDims⟩ :=
    builds_int32Field (by decide) rfl rfl rfl
  exact (((hname.append hnotNull).append hisArray).append htype).append harrayDims

end Column

/-! ### Placeholders -/

namespace Parameter

theorem length_encode (p : Parameter) : p.encode.length = p.size := by
  simp only [encode, size, List.length_append, length_int32Field,
    length_optional Column.length_encode]

theorem builds_encode (depth : Nat) (p : Parameter) (h : p.encode.length < 2 ^ 64) :
    type.Builds (depth + 2) type.empty p.encode p := by
  obtain ⟨number, column?⟩ := p
  simp only [encode, List.length_append] at h
  have hnumber : type.Builds (depth + 2) ⟨0, none⟩ (int32Field 1 number) ⟨number, none⟩ :=
    builds_int32Field (by decide) rfl rfl rfl
  have hcolumn : type.Builds (depth + 2) ⟨number, none⟩
      (column?.elim [] fun c => delimited 2 c.encode) ⟨number, column?⟩ :=
    builds_optional (by decide) rfl rfl (Column.builds_encode depth) (by cases column? <;> rfl)
      (by omega)
  exact hnumber.append hcolumn

end Parameter

/-! ### Queries -/

namespace Query

theorem length_encode (q : Query) : q.encode.length = q.size := by
  simp only [encode, size, List.length_append, length_textField,
    length_repeatedField Column.length_encode, length_repeatedField Parameter.length_encode]

theorem builds_encode (depth : Nat) (q : Query) (h : q.encode.length < 2 ^ 64) :
    type.Builds (depth + 3) type.empty q.encode q := by
  obtain ⟨text, name, command, columns, params, filename⟩ := q
  simp only [encode, List.length_append] at h
  have htext : type.Builds (depth + 3) ⟨"", "", "", [], [], ""⟩ (textField 1 text)
      ⟨text, "", "", [], [], ""⟩ :=
    builds_textField (by decide) rfl rfl rfl (by omega)
  have hname : type.Builds (depth + 3) ⟨text, "", "", [], [], ""⟩ (textField 2 name)
      ⟨text, name, "", [], [], ""⟩ :=
    builds_textField (by decide) rfl rfl rfl (by omega)
  have hcommand : type.Builds (depth + 3) ⟨text, name, "", [], [], ""⟩ (textField 3 command)
      ⟨text, name, command, [], [], ""⟩ :=
    builds_textField (by decide) rfl rfl rfl (by omega)
  have hcolumns : type.Builds (depth + 3) ⟨text, name, command, [], [], ""⟩
      (repeatedField 4 (columns.map Column.encode)) ⟨text, name, command, columns, [], ""⟩ :=
    builds_repeatedField (fun columns => (⟨text, name, command, columns, [], ""⟩ : Query))
      (by decide) rfl (Column.builds_encode (depth + 1)) (fun _ _ => rfl) [] (by omega)
  have hparams : type.Builds (depth + 3) ⟨text, name, command, columns, [], ""⟩
      (repeatedField 5 (params.map Parameter.encode))
      ⟨text, name, command, columns, params, ""⟩ :=
    builds_repeatedField (fun params => (⟨text, name, command, columns, params, ""⟩ : Query))
      (by decide) rfl (Parameter.builds_encode depth) (fun _ _ => rfl) [] (by omega)
  have hfilename : type.Builds (depth + 3) ⟨text, name, command, columns, params, ""⟩
      (textField 7 filename) ⟨text, name, command, columns, params, filename⟩ :=
    builds_textField (by decide) rfl rfl rfl (by omega)
  exact ((((htext.append hname).append hcommand).append hcolumns).append hparams).append hfilename

end Query

/-! ### Requests and responses -/

namespace Request

theorem length_encode (r : Request) : r.encode.length = r.size := by
  simp only [encode, size, List.length_append, length_textField, length_bytesField,
    length_repeatedField Query.length_encode]

theorem builds_encode (depth : Nat) (r : Request) (h : r.encode.length < 2 ^ 64) :
    type.Builds (depth + 4) type.empty r.encode r := by
  obtain ⟨queries, version, settings⟩ := r
  simp only [encode, List.length_append] at h
  have hqueries : type.Builds (depth + 4) ⟨[], "", []⟩
      (repeatedField 3 (queries.map Query.encode)) ⟨queries, "", []⟩ :=
    builds_repeatedField (fun queries => (⟨queries, "", []⟩ : Request))
      (by decide) rfl (Query.builds_encode depth) (fun _ _ => rfl) [] (by omega)
  have hversion : type.Builds (depth + 4) ⟨queries, "", []⟩ (textField 4 version)
      ⟨queries, version, []⟩ :=
    builds_textField (by decide) rfl rfl rfl (by omega)
  have hsettings : type.Builds (depth + 4) ⟨queries, version, []⟩ (bytesField 5 settings)
      ⟨queries, version, settings⟩ :=
    builds_bytesField (by decide) rfl rfl rfl (by omega)
  exact (hqueries.append hversion).append hsettings

end Request

namespace Response

theorem length_encode (r : Response) : r.encode.length = r.size := by
  simp only [encode, size, length_repeatedField File.length_encode]

theorem builds_encode (depth : Nat) (r : Response) (h : r.encode.length < 2 ^ 64) :
    type.Builds (depth + 1) type.empty r.encode r := by
  obtain ⟨files⟩ := r
  exact builds_repeatedField (fun files => (⟨files⟩ : Response))
    (by decide) rfl (File.builds_encode depth) (fun _ _ => rfl) [] h

end Response

/-! ### All messages -/

/-- **Every message comes back from its bytes**, and its size is the number of these
    bytes: whatever texts, bytes and numbers it holds, however long its lists are, and
    whether the messages inside it are missing, empty or filled. So the files of a
    response arrive with their names and contents, in order. -/
theorem messages_round_trip :
    Identifier.type.RoundTrips Identifier.encode Identifier.size ∧
    Column.type.RoundTrips Column.encode Column.size ∧
    Parameter.type.RoundTrips Parameter.encode Parameter.size ∧
    Query.type.RoundTrips Query.encode Query.size ∧
    Request.type.RoundTrips Request.encode Request.size ∧
    File.type.RoundTrips File.encode File.size ∧
    Response.type.RoundTrips Response.encode Response.size ∧
    ∀ r : QueryClient.Response, (encodeResponse r).length < 2 ^ 64 →
      Response.type.decode (encodeResponse r) =
        .ok ⟨r.files.map fun f => ⟨f.name, f.contents⟩⟩ := by
  refine ⟨⟨Identifier.length_encode, ?_⟩, ⟨Column.length_encode, ?_⟩,
    ⟨Parameter.length_encode, ?_⟩, ⟨Query.length_encode, ?_⟩, ⟨Request.length_encode, ?_⟩,
    ⟨File.length_encode, ?_⟩, ⟨Response.length_encode, ?_⟩, ?_⟩
  · exact fun i h => (Identifier.builds_encode depthLimit i h).decode_eq
  · exact fun c h => (Column.builds_encode 99 c h).decode_eq
  · exact fun p h => (Parameter.builds_encode 98 p h).decode_eq
  · exact fun q h => (Query.builds_encode 97 q h).decode_eq
  · exact fun r h => (Request.builds_encode 96 r h).decode_eq
  · exact fun f h => (File.builds_encode depthLimit f h).decode_eq
  · exact fun r h => (Response.builds_encode 99 r h).decode_eq
  · exact fun r h => (Response.builds_encode 99 (Response.ofResponse r) h).decode_eq

/-- A negative number takes ten bytes, and a message without fields is written where a
    missing one is not. -/
example : (Column.encode ⟨"id", false, true, some ⟨"", "", ""⟩, -1⟩).length = 20 ∧
    (Parameter.encode ⟨0, none⟩).length = 0 := by
  decide +kernel

end QueryClient.Wire

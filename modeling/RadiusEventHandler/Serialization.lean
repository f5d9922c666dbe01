import RadiusEventHandler.Framework.Archive
import RadiusEventHandler.Worker

/-!
# Serialisation (`Utils.hpp`, `ThriftSender.cpp`)

Each `serialize` template describes one class for the archive that writes and
for the one that reads. The archives are those of Boost.Serialization, which is
no part of the repository: `Archive` has the operations that the templates use,
and `Reads` is what the library promises of an archive that reads what another
one has written: values are read back, vectors when their elements are, objects
when their members are.
-/

namespace RadiusEventHandler

open Archiving

/-- The classes whose objects are archived. -/
inductive SerializedClass where
  | plainThriftStruct
  | avpList
  | radiusAvp
deriving DecidableEq

/-- `ar & x`, by the type of `x`. A reading archive is given the value that is
there before and constructs the elements of a vector anew. -/
structure Archive (m : Type → Type) where
  uint8 : UInt8 → m UInt8
  uint16 : UInt16 → m UInt16
  uint64 : UInt64 → m UInt64
  string : List UInt8 → m (List UInt8)
  vector {α : Type} (new : α) (item : α → m α) : List α → m (List α)
  object {α : Type} (class_ : SerializedClass) (serialize : α → m α) : α → m α

section Templates

variable {m : Type → Type} [Monad m] (ar : Archive m)

/-- `RadiusAvpType::serialize`. -/
def RadiusAvp.serialize (avp : RadiusAvp) : m RadiusAvp := do
  let type ← ar.uint8 avp.type
  let value ← ar.string avp.value
  return { type, value }

def AvpList.serialize : AvpList → m AvpList :=
  ar.vector ⟨0, []⟩ (ar.object .radiusAvp (RadiusAvp.serialize ar))

/-- `PlainThriftStruct::serialize`. -/
def PlainThriftStruct.serialize (s : PlainThriftStruct) : m PlainThriftStruct := do
  let captureTimeStamp ← ar.uint64 s.captureTimeStamp
  let applId ← ar.uint16 s.applId
  let reqAvpList ← ar.object .avpList (AvpList.serialize ar) s.reqAvpList
  let respAvpList ← ar.object .avpList (AvpList.serialize ar) s.respAvpList
  return { captureTimeStamp, applId, reqAvpList, respAvpList }

/-- `archive << s` and `archive >> s`. -/
def PlainThriftStruct.archived (s : PlainThriftStruct) : m PlainThriftStruct :=
  ar.object .plainThriftStruct (PlainThriftStruct.serialize ar) s

end Templates

/-- `boost::archive::text_oarchive`: what it writes when it is constructed, for
each value, and when it is destroyed. -/
structure TextOarchive (γ : Type) where
  header : List UInt8
  initial : γ
  operations : Archive (Saver γ UInt8)
  footer : List UInt8

/-- `boost::archive::text_iarchive`; its constructor reads the header. -/
structure TextIarchive (γ : Type) where
  open? : List UInt8 → Option (γ × List UInt8)
  operations : Archive (Loader γ UInt8)

variable {γ : Type}

/-- The text in `send_buf`: the archive has not been destroyed yet. -/
def sendBuf (oa : TextOarchive γ) (s : PlainThriftStruct) : List UInt8 :=
  oa.header ++ (s.archived oa.operations oa.initial).2.2

/-- `ThriftSender::save_thrift`: the bytes of the file. -/
def saveThrift (oa : TextOarchive γ) (s : PlainThriftStruct) : List UInt8 :=
  sendBuf oa s ++ oa.footer

/-- `ThriftSender::restore_thrift` on the bytes of a file, and the bytes left;
`none` where the archive throws. -/
def restoreThrift (ia : TextIarchive γ) (s : PlainThriftStruct) (file : List UInt8) :
    Option (PlainThriftStruct × List UInt8) :=
  (ia.open? file).bind fun opened =>
    (s.archived ia.operations opened).map fun restored => (restored.1, restored.2.2)

/-- What is read of each value is what was written. Of a vector this is so when
it is so of the elements, of an object when it is so of the members. -/
structure Archive.Inverse (ends : List UInt8 → Prop) (save : Archive (Saver γ UInt8))
    (load : Archive (Loader γ UInt8)) : Prop where
  uint8 : ∀ v v', Restores ends (save.uint8 v) (load.uint8 v') v
  uint16 : ∀ v v', Restores ends (save.uint16 v) (load.uint16 v') v
  uint64 : ∀ v v', Restores ends (save.uint64 v) (load.uint64 v') v
  string : ∀ v v', Restores ends (save.string v) (load.string v') v
  vector : ∀ {α : Type} (new : α) (saveItem : α → Saver γ UInt8 α)
    (loadItem : α → Loader γ UInt8 α),
    (∀ x x', Restores ends (saveItem x) (loadItem x') x) →
      ∀ xs xs', Restores ends (save.vector new saveItem xs) (load.vector new loadItem xs') xs
  object : ∀ {α : Type} (class_ : SerializedClass) (saveObject : α → Saver γ UInt8 α)
    (loadObject : α → Loader γ UInt8 α),
    (∀ x x', Restores ends (saveObject x) (loadObject x') x) →
      ∀ x x', Restores ends (save.object class_ saveObject x) (load.object class_ loadObject x') x

/-- The one archive reads what the other one writes. A value may be followed by
the end of the text, by the footer and by every text that `ends` allows. -/
structure Reads (ends : List UInt8 → Prop) (oa : TextOarchive γ) (ia : TextIarchive γ) : Prop where
  opens : ∀ rest, ends rest → ia.open? (oa.header ++ rest) = some (oa.initial, rest)
  inverse : Archive.Inverse ends oa.operations ia.operations
  nil : ends []
  footer : ends oa.footer

variable {ends : List UInt8 → Prop} {save : Archive (Saver γ UInt8)}
  {load : Archive (Loader γ UInt8)} {oa : TextOarchive γ} {ia : TextIarchive γ}

/-! ## The templates restore what they save -/

theorem RadiusAvp.restores_serialize (inverse : Archive.Inverse ends save load)
    (avp avp' : RadiusAvp) :
    Restores ends (avp.serialize save) (avp'.serialize load) avp :=
  (inverse.uint8 avp.type avp'.type).bind
    ((inverse.string avp.value avp'.value).bind (restores_pure avp))

theorem AvpList.restores_serialize (inverse : Archive.Inverse ends save load)
    (avps avps' : AvpList) :
    Restores ends (AvpList.serialize save avps) (AvpList.serialize load avps') avps := by
  apply inverse.vector
  exact inverse.object .radiusAvp _ _ (RadiusAvp.restores_serialize inverse)

theorem PlainThriftStruct.restores_serialize (inverse : Archive.Inverse ends save load)
    (s s' : PlainThriftStruct) :
    Restores ends (s.serialize save) (s'.serialize load) s := by
  have list := inverse.object .avpList _ _ (AvpList.restores_serialize inverse)
  apply (inverse.uint64 s.captureTimeStamp s'.captureTimeStamp).bind
  apply (inverse.uint16 s.applId s'.applId).bind
  apply (list s.reqAvpList s'.reqAvpList).bind
  exact (list s.respAvpList s'.respAvpList).bind (restores_pure s)

theorem PlainThriftStruct.restores_archived (inverse : Archive.Inverse ends save load)
    (s s' : PlainThriftStruct) :
    Restores ends (s.archived save) (s'.archived load) s :=
  inverse.object .plainThriftStruct _ _ (PlainThriftStruct.restores_serialize inverse) s s'

theorem restoreThrift_append (reads : Reads ends oa ia) (s s' : PlainThriftStruct)
    {rest : List UInt8} (allowed : ends rest) :
    restoreThrift ia s' (sendBuf oa s ++ rest) = some (s, rest) := by
  have restores := PlainThriftStruct.restores_archived reads.inverse s s'
  rw [restoreThrift, sendBuf, List.append_assoc, reads.opens _ (restores.ends _ _ allowed),
    Option.bind_some, restores.loads _ _ allowed]
  rfl

theorem restoreThrift_sendBuf (reads : Reads ends oa ia) (s s' : PlainThriftStruct) :
    restoreThrift ia s' (sendBuf oa s) = some (s, []) := by
  have restored := restoreThrift_append reads s s' reads.nil
  rwa [List.append_nil] at restored

/-- **What is saved is restored.** Whatever structure is sent, and whatever the
structure was that it is restored into: the datagram and the file give it back,
no two structures have one datagram, and no datagram is the beginning of a
longer one that an archive could read. -/
theorem restoreThrift_saveThrift (reads : Reads ends oa ia) (s s' : PlainThriftStruct) :
    restoreThrift ia s' (sendBuf oa s) = some (s, []) ∧
      restoreThrift ia s' (saveThrift oa s) = some (s, oa.footer) ∧
      ∀ t rest, ends rest → sendBuf oa t = sendBuf oa s ++ rest → t = s ∧ rest = [] := by
  refine ⟨restoreThrift_sendBuf reads s s', restoreThrift_append reads s s' reads.footer, ?_⟩
  intro t rest allowed longer
  have own := restoreThrift_sendBuf reads t s'
  rw [longer, restoreThrift_append reads s s' allowed] at own
  obtain ⟨rfl, rfl⟩ := Prod.mk.inj (Option.some.inj own)
  exact ⟨rfl, rfl⟩

end RadiusEventHandler

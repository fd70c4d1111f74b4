import MpcNetwork.Threshold.Participants

/-! # Protocols as their driver sees them

A protocol is poked until it waits or returns, and is told of the messages that arrive.
What a participant computes in between stays behind this interface.
-/

namespace MpcNetwork.Threshold

abbrev MessageData := List UInt8

inductive MessageError where
  | bufferFull (capacity : Nat)
  | tooShort (len min : Nat)
  | invalidHeader
  deriving Repr, DecidableEq

inductive ProtocolError where
  | assertionFailed (text : String)
  | dkgNotSupported
  | emptyOrZeroCoefficients
  | errorExtractVerificationKey
  | errorFrostRerandomizingParameters
  | errorFrostSigningFailed
  | errorFrostAggregation
  | errorEncoding
  | errorReducingBytesToScalar
  | identityElement
  | incompatibleRerandomizationInputs
  | invalidCommitmentHash
  | invalidIndex
  | invalidInput (text : String)
  | ioError (text : String)
  | invalidInterpolationArguments
  | incorrectNumberOfCommitments
  | invalidProofOfKnowledge (participant : Participant)
  | invalidSecretShare (participant : Participant)
  | malformedElement
  | maliciousParticipant (participant : Participant)
  | malformedSigningKey
  | pointSerialization
  | hashingError
  | zeroScalar
  | unreachable
  | integerOverflow
  | unexpectedLength (expected actual : Nat)
  | deserializationError (text : String)
  | message (error : MessageError)
  | other (text : String)
  deriving Repr, DecidableEq

inductive Action (T : Type) where
  | wait
  | sendMany (data : MessageData)
  | sendPrivate (recipient : Participant) (data : MessageData)
  | returned (output : T)
  deriving DecidableEq

/-- Finitely many messages come before it waits, returns or fails, private ones to its parties. -/
structure Protocol (σ T : Type) where
  poke : σ → Except ProtocolError (Action T × σ)
  message : σ → Participant → MessageData → Except MessageError σ
  parties : σ → List Participant
  backlog : σ → Nat
  backlog_many : ∀ {s t data}, poke s = .ok (.sendMany data, t) → backlog t < backlog s
  backlog_private : ∀ {s t recipient data},
    poke s = .ok (.sendPrivate recipient data, t) → backlog t < backlog s
  private_to : ∀ {s t recipient data},
    poke s = .ok (.sendPrivate recipient data, t) → recipient ∈ parties s
  parties_poke : ∀ {s t action}, poke s = .ok (action, t) → parties t = parties s
  parties_message : ∀ {s t sender data}, message s sender data = .ok t → parties t = parties s

end MpcNetwork.Threshold

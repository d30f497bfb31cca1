import Gcrypt.Library.Bytes
import Gcrypt.Library.Effect
import Gcrypt.Library.Agreement
import Gcrypt.Library.Relational
import Gcrypt.Library.Latch
import Gcrypt.Library.Modular
import Gcrypt.Library.Montgomery
import Gcrypt.Library.PrimeOrder
import Gcrypt.Protocol
import Gcrypt.Primitives
import Gcrypt.Store
import Gcrypt.Util
import Gcrypt.Keygen
import Gcrypt.Algorithms
import Gcrypt.Pqxdh
import Gcrypt.Reference.Hash
import Gcrypt.Reference.Curve25519
import Gcrypt.Reference.Mlkem
import Gcrypt.Reference.Instance
import Gcrypt.Xeddsa
import Gcrypt.Reference.Ed25519
import Gcrypt.Signatures
import Gcrypt.Concatenation
import Gcrypt.PointMap
import Gcrypt.Signer
import Gcrypt.SigningKey
import Gcrypt.Exactness
import Gcrypt.Handshake
import Gcrypt.Authentication
import Gcrypt.KeyAgreement
import Gcrypt.Transcript
import Gcrypt.Inbound
import Gcrypt.StoredSessions
import Gcrypt.Lookups
import Gcrypt.Publishing
import Gcrypt.Generated
import Gcrypt.Identifiers
import Gcrypt.KeyIds
import Gcrypt.Failures
import Gcrypt.Blobs
import Gcrypt.Jnib
import Gcrypt.Independence
import Gcrypt.Interleavings
import Gcrypt.Randomness
import Gcrypt.NoStore
import Gcrypt.Forgery
import Gcrypt.Marshalling
import Gcrypt.Endpoints
import Gcrypt.Lifetimes

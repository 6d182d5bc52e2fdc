import Rlpx.Basic
import Rlpx.Rlp
import Rlpx.Suite
import Rlpx.Frame
import Rlpx.Session
import Rlpx.Stream
import Rlpx.Disjoint
import Rlpx.Integrity
import Rlpx.Signature
import Rlpx.Keys
import Rlpx.Link
import Rlpx.Handshake
import Rlpx.Agreement
import Rlpx.HandshakeFaults
import Rlpx.Authentication
import Rlpx.OneCertificate
import Rlpx.Channels
import Rlpx.CryptoPackage
import Rlpx.Checksum

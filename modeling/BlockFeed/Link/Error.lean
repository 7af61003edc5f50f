import BlockFeed.Text.Lowercase

/-!
# Errors of links

What can go wrong with a socket and with the connection that uses it, and which of these errors
mean that the connection is gone.

## Main definitions

* `IoKind`, `SocketError`: failures of the socket layer.
* `ConnectionError`: failures of a connection, with `ConnectionError.message`.
* `ConnectionError.isClosed`: the connection is gone and will not come back.
* `ConnectionError.ofDialed`, `ConnectionError.ofAccepted`: the error that a socket failure is
  reported as, on the dialing and on the accepting side.

## Design notes

The dialing side keeps the kind of a socket failure; the accepting side knows its text alone, and
looks there for the words that tell a lost connection.
-/

namespace BlockFeed

/-- Kinds of input and output failures. -/
inductive IoKind where
  | notFound | permissionDenied | connectionRefused | connectionReset | hostUnreachable
  | networkUnreachable | connectionAborted | notConnected | addrInUse | addrNotAvailable
  | networkDown | brokenPipe | alreadyExists | wouldBlock | notADirectory | isADirectory
  | directoryNotEmpty | readOnlyFilesystem | staleNetworkFileHandle | invalidInput | invalidData
  | timedOut | writeZero | storageFull | notSeekable | quotaExceeded | fileTooLarge
  | resourceBusy | executableFileBusy | deadlock | crossesDevices | tooManyLinks
  | invalidFilename | argumentListTooLong | interrupted | unsupported | unexpectedEof
  | outOfMemory | other
  deriving DecidableEq, Repr

namespace IoKind

def names : List (IoKind × String) :=
  [(notFound, "NotFound"), (permissionDenied, "PermissionDenied"),
    (connectionRefused, "ConnectionRefused"), (connectionReset, "ConnectionReset"),
    (hostUnreachable, "HostUnreachable"), (networkUnreachable, "NetworkUnreachable"),
    (connectionAborted, "ConnectionAborted"), (notConnected, "NotConnected"),
    (addrInUse, "AddrInUse"), (addrNotAvailable, "AddrNotAvailable"),
    (networkDown, "NetworkDown"), (brokenPipe, "BrokenPipe"), (alreadyExists, "AlreadyExists"),
    (wouldBlock, "WouldBlock"), (notADirectory, "NotADirectory"),
    (isADirectory, "IsADirectory"), (directoryNotEmpty, "DirectoryNotEmpty"),
    (readOnlyFilesystem, "ReadOnlyFilesystem"),
    (staleNetworkFileHandle, "StaleNetworkFileHandle"), (invalidInput, "InvalidInput"),
    (invalidData, "InvalidData"), (timedOut, "TimedOut"), (writeZero, "WriteZero"),
    (storageFull, "StorageFull"), (notSeekable, "NotSeekable"),
    (quotaExceeded, "QuotaExceeded"), (fileTooLarge, "FileTooLarge"),
    (resourceBusy, "ResourceBusy"), (executableFileBusy, "ExecutableFileBusy"),
    (deadlock, "Deadlock"), (crossesDevices, "CrossesDevices"), (tooManyLinks, "TooManyLinks"),
    (invalidFilename, "InvalidFilename"), (argumentListTooLong, "ArgumentListTooLong"),
    (interrupted, "Interrupted"), (unsupported, "Unsupported"),
    (unexpectedEof, "UnexpectedEof"), (outOfMemory, "OutOfMemory"), (other, "Other")]

def name (k : IoKind) : String := (names.lookup k).getD "Other"

def ofName? (n : String) : Option IoKind := (names.find? fun e => e.2 == n).map (·.1)

end IoKind

/-- Breaches of the socket protocol. -/
inductive ProtocolError where
  | resetWithoutClosingHandshake
  | sendAfterClosing
  | receivedAfterClosing
  | handshakeIncomplete
  | nonZeroReservedBits
  | invalidOpcode (opcode : Nat)
  | invalidCloseSequence
  | other (text : String)
  deriving DecidableEq, Repr

namespace ProtocolError

def text : ProtocolError → String
  | resetWithoutClosingHandshake => "Connection reset without closing handshake"
  | sendAfterClosing => "Sending after closing is not allowed"
  | receivedAfterClosing => "Remote sent after having closed"
  | handshakeIncomplete => "Handshake not finished"
  | nonZeroReservedBits => "Reserved bits are non-zero"
  | invalidOpcode opcode => "Encountered invalid opcode: " ++ toString opcode
  | invalidCloseSequence => "Invalid close sequence"
  | other text => text

end ProtocolError

/-- Failures of the socket layer. -/
inductive SocketError where
  | connectionClosed
  | alreadyClosed
  | utf8
  | attackAttempt
  | writeBufferFull
  | io (kind : IoKind) (message : String)
  | messageTooLong (size maximum : Nat)
  | protocol (error : ProtocolError)
  | unableToConnect (target : String)
  | other (text : String)
  deriving DecidableEq, Repr

namespace SocketError

/-- The failures that carry nothing, with their names. -/
def names : List (SocketError × String) :=
  [(connectionClosed, "ConnectionClosed"), (alreadyClosed, "AlreadyClosed"), (utf8, "Utf8"),
    (attackAttempt, "AttackAttempt"), (writeBufferFull, "WriteBufferFull"),
    (protocol .resetWithoutClosingHandshake, "ResetWithoutClosingHandshake"),
    (protocol .sendAfterClosing, "SendAfterClosing"),
    (protocol .receivedAfterClosing, "ReceivedAfterClosing"),
    (protocol .handshakeIncomplete, "HandshakeIncomplete"),
    (protocol .nonZeroReservedBits, "NonZeroReservedBits"),
    (protocol .invalidCloseSequence, "InvalidCloseSequence")]

/-- The failure with a name that carries nothing. -/
def ofName? (n : String) : Option SocketError := (names.find? fun e => e.2 == n).map (·.1)

def text : SocketError → String
  | connectionClosed => "Connection closed normally"
  | alreadyClosed => "Trying to work with closed connection"
  | utf8 => "UTF-8 encoding error"
  | attackAttempt => "Attack attempt detected"
  | writeBufferFull => "Write buffer is full"
  | io _ message => "IO error: " ++ message
  | messageTooLong size maximum =>
    "Space limit exceeded: Message too long: " ++ toString size ++ " > " ++ toString maximum
  | protocol error => "WebSocket protocol error: " ++ error.text
  | unableToConnect target => "URL error: Unable to connect to " ++ target
  | other text => text

end SocketError

/-- Failures of a connection. -/
inductive ConnectionError where
  | alreadyOpen
  | notOpen
  | closedByPeer
  | cannotRedial
  | dial (address : String) (cause : SocketError)
  | io (kind : IoKind) (message : String)
  | transport (message : String)
  deriving DecidableEq, Repr

namespace ConnectionError

def message : ConnectionError → String
  | alreadyOpen => "connection already open"
  | notOpen => "connection not open"
  | closedByPeer => "connection closed by peer"
  | cannotRedial => "accepted connection cannot be re-opened"
  | dial address cause => "dial " ++ address ++ ": " ++ cause.text
  | io _ message => "io: " ++ message
  | transport message => "transport: " ++ message

/-- The words that tell a lost connection in the text of a failure. -/
def closingWords : List String := ["closed", "broken pipe", "reset"]

/-- Whether the text of a failure tells of a lost connection, in any case of its letters. -/
def tellsClosed (text : String) : Bool :=
  closingWords.any fun w => Text.contains (Text.lower text) w

/-- Whether an error means that the connection is gone. -/
def isClosed : ConnectionError → Bool
  | notOpen | closedByPeer => true
  | io kind _ =>
    kind == .brokenPipe || kind == .connectionReset || kind == .connectionAborted
      || kind == .unexpectedEof
  | transport message => tellsClosed message
  | alreadyOpen | cannotRedial | dial .. => false

/-- The error that a socket failure is reported as on the dialing side. -/
def ofDialed : SocketError → ConnectionError
  | .connectionClosed | .alreadyClosed | .protocol .resetWithoutClosingHandshake => closedByPeer
  | .io kind message => io kind message
  | e => transport e.text

/-- The error that a socket failure is reported as on the accepting side. -/
def ofAccepted (e : SocketError) : ConnectionError := transport e.text

end ConnectionError

/-- Failures of removing a connection from a registry. -/
inductive RegistryError where
  | notFound (id : String)
  /-- The connection was removed, and closing it failed. -/
  | close (error : ConnectionError)
  deriving DecidableEq, Repr

def RegistryError.message : RegistryError → String
  | notFound id => "connection " ++ id ++ " not found"
  | close error => "close connection: " ++ error.message

/-- A connection, by its id, that failed to take a payload. -/
structure Failure where
  id : String
  error : ConnectionError
  deriving DecidableEq, Repr

/-- Failures of sending a payload. -/
inductive SendError where
  | noConnections
  | emptyPayload
  | allWritesFailed (failures : List Failure)
  | closed
  deriving DecidableEq, Repr

namespace SendError

def message : SendError → String
  | noConnections => "no connections"
  | emptyPayload => "empty payload"
  | allWritesFailed failures =>
    "all " ++ toString failures.length ++ " connection writes failed: "
      ++ "; ".intercalate (failures.map fun f => f.id ++ ": " ++ f.error.message)
  | closed => "sender closed"

/-- Whether an error means that every connection is gone. -/
def isConnectionClosed : SendError → Bool
  | noConnections => true
  | allWritesFailed failures => failures.all fun f => f.error.isClosed
  | emptyPayload | closed => false

end SendError

end BlockFeed
